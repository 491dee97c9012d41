import DefiComposer.Proofs.Places
import DefiComposer.Proofs.Removals

/-!
# Removal findings: a removal makes no errors

A removal may leave a primitive without connections, and a connection on one primitive without the label of it; neither is an
error. The errors of a composition are those of its records and those of its connections, and of a connection they depend on
the two ports that are found for it only (`Composition.connectionErrors_congr`). A primitive goes together with every
connection at one of its ports, so the ports of a connection that stays are found where they were, whatever else has ports of
the same names (`Composition.output?_removePrimitive`). So the errors after a removal are some of those before, in their
order.
-/

namespace DefiComposer

/-- On no side there is a port that the primitive does not have. -/
theorem Primitive.find?_eq_none {p : Primitive} {side : List Port} (hside : side ⊆ p.ports) {port : PortId}
    (h : p.ownsPort port = false) : side.find? (·.id = port) = none := by
  rw [List.find?_eq_none]
  intro x hx hid
  exact List.any_eq_false.mp h x (hside hx) hid

namespace Composition

variable {c d : Composition} {now : Timestamp} {id : PrimitiveId} {p : Primitive} {k : Connection}

/-! ## Errors -/

/-- The findings that are errors. -/
def errors (c : Composition) : List Issue := c.validate.withSeverity .error

/-- The findings on a connection that are errors. -/
def connectionErrors (c : Composition) (k : Connection) : List Issue :=
  (c.connectionIssues k).filter (·.severity = .error)

/-- The errors are found in the records and the connections. -/
theorem errors_eq (c : Composition) :
    c.errors = c.primitives.values.flatMap (fun p => p.parameterIssues.filter (·.severity = .error)) ++
      c.connections.values.flatMap c.connectionErrors := by
  have horphans : (c.primitives.values.filterMap c.orphanIssue?).filter (·.severity = .error) = [] := by
    rw [List.filter_eq_nil_iff]
    intro i hi
    obtain ⟨p, -, hp⟩ := List.mem_filterMap.mp hi
    have hplace : i ∈ c.issuesAt (.primitive p) := Option.mem_toList.mpr hp
    have hwarning := (issuesAt_about hplace).1
    rw [(orphanIssue?_eq_some hp).1] at hwarning
    simp [hwarning, IssueKind.severity]
  rw [errors, Report.withSeverity, validate, List.filter_append, List.filter_append, horphans, List.append_nil,
    List.filter_flatMap, List.filter_flatMap]
  rfl

/-- A composition is valid exactly when it has no errors. -/
theorem isValid_iff_errors : c.validate.isValid = true ↔ c.errors = [] := by
  simp [Report.isValid, errors, Report.withSeverity]

/-- The errors of a connection depend on the ports that are found for it. -/
theorem connectionErrors_congr (hs : d.output? k.source = c.output? k.source) (ht : d.input? k.target = c.input? k.target) :
    d.connectionErrors k = c.connectionErrors k := by
  unfold connectionErrors connectionIssues
  rw [hs, ht]
  dsimp only
  split
  · -- only the warning that both ports are on one primitive names a label
    simp only [joinIssues, List.filter_append]
    congr 1
    split <;> rfl
  · rfl
  · rfl
  · rfl

/-! ## One removal -/

/-- A port that the removed primitive does not have is found where it was. -/
theorem output?_removePrimitive (hp : c.primitive? id = some p) {port : PortId} (h : p.ownsPort port = false) :
    (c.removePrimitive now id).2.output? port = c.output? port := by
  rw [output?, removePrimitive_primitives]
  refine OrderedMap.findSome?_erase fun q hq => ?_
  obtain rfl := Option.some.inj (hp.symm.trans hq)
  exact Primitive.find?_eq_none p.outputs_subset h

theorem input?_removePrimitive (hp : c.primitive? id = some p) {port : PortId} (h : p.ownsPort port = false) :
    (c.removePrimitive now id).2.input? port = c.input? port := by
  rw [input?, removePrimitive_primitives]
  refine OrderedMap.findSome?_erase fun q hq => ?_
  obtain rfl := Option.some.inj (hp.symm.trans hq)
  exact Primitive.find?_eq_none p.inputs_subset h

/-- A connection that stays has the errors that it had. -/
theorem connectionErrors_removePrimitive (hk : c.isIncident id k = false) :
    (c.removePrimitive now id).2.connectionErrors k = c.connectionErrors k := by
  cases hp : c.primitive? id with
  | none => rw [removePrimitive_of_absent hp]
  | some p =>
    have hfree : p.ownsPort k.source = false ∧ p.ownsPort k.target = false := by
      simpa [isIncident, hp, Primitive.touches] using hk
    exact connectionErrors_congr (output?_removePrimitive hp hfree.1) (input?_removePrimitive hp hfree.2)

/-- After the removal of a primitive there are no new errors, and the ones that are left stand in their order. -/
theorem errors_removePrimitive (c : Composition) (now : Timestamp) (id : PrimitiveId) :
    (c.removePrimitive now id).2.errors.Sublist c.errors := by
  rw [errors_eq, errors_eq]
  refine List.Sublist.append ?_ ?_
  · rw [removePrimitive_primitives]
    exact ((OrderedMap.entries_erase_sublist _ _).map Prod.snd).flatMap _
  · rw [removePrimitive_connections, OrderedMap.values_filter]
    have hsame : ∀ k ∈ c.connections.values.filter (fun k => !c.isIncident id k),
        (c.removePrimitive now id).2.connectionErrors k = c.connectionErrors k := by
      intro k hk
      exact connectionErrors_removePrimitive (by simpa using (List.mem_filter.mp hk).2)
    rw [List.flatMap_congr hsame]
    exact List.filter_sublist.flatMap _

/-- After the removal of a connection there are no new errors either. -/
theorem errors_removeConnection (c : Composition) (now : Timestamp) (id : ConnectionId) :
    (c.removeConnection now id).2.errors.Sublist c.errors := by
  unfold removeConnection
  split
  · exact List.Sublist.refl _
  · rw [errors_eq, errors_eq]
    refine List.Sublist.append (List.Sublist.refl _) ?_
    exact ((OrderedMap.entries_erase_sublist c.connections id).map Prod.snd).flatMap c.connectionErrors

end Composition

/-! ## Many removals -/

/-- Whether an edit removes a primitive or a connection. -/
def Edit.isRemoval : Edit → Bool
  | .removePrimitive _ => true
  | .removeConnection _ => true
  | _ => false

namespace Store

/-- A removal makes no new error, and keeps the order of those that are left. -/
theorem errors_perform (s : Store) (now : Timestamp) (edit : Edit) (h : edit.isRemoval = true) :
    (s.perform now edit).composition.errors.Sublist s.composition.errors := by
  have hrefl := List.Sublist.refl s.composition.errors
  cases edit with
  | removePrimitive id =>
    exact s.commitRemoval_keeps (motive := fun c => c.errors.Sublist s.composition.errors) hrefl
      (s.composition.errors_removePrimitive now id)
  | removeConnection id =>
    exact s.commitRemoval_keeps (motive := fun c => c.errors.Sublist s.composition.errors) hrefl
      (s.composition.errors_removeConnection now id)
  | _ => cases h

/-- Removals make no errors, however many they are. -/
theorem errors_run (s : Store) (edits : List (Timestamp × Edit)) (h : ∀ e ∈ edits, e.2.isRemoval = true) :
    (s.run edits).composition.errors.Sublist s.composition.errors :=
  run_induction_of (fun edit => edit.isRemoval = true)
    (motive := fun s' => s'.composition.errors.Sublist s.composition.errors)
    (fun s' now edit he hs' => (s'.errors_perform now edit he).trans hs') s edits h (List.Sublist.refl _)

end Store

namespace Composition

/-- Whatever the composition, the errors after a removal are some of those before it, in their order; so a valid composition
stays valid under removals. -/
theorem removals_make_no_errors (c : Composition) :
    (∀ now id, ((c.removePrimitive now id).2.validate.withSeverity .error).Sublist (c.validate.withSeverity .error)) ∧
      (∀ now id, ((c.removeConnection now id).2.validate.withSeverity .error).Sublist (c.validate.withSeverity .error)) ∧
      ∀ options (removals : List (Timestamp × Edit)), (∀ e ∈ removals, e.2.isRemoval = true) →
        let s := Store.run ⟨c, options⟩ removals
        (s.composition.validate.withSeverity .error).Sublist (c.validate.withSeverity .error) ∧
          (c.validate.isValid = true → s.composition.validate.isValid = true) := by
  refine ⟨c.errors_removePrimitive, c.errors_removeConnection, fun options removals h => ?_⟩
  have hsub := Store.errors_run ⟨c, options⟩ removals h
  refine ⟨hsub, fun hvalid => isValid_iff_errors.mpr ?_⟩
  rw [isValid_iff_errors.mp hvalid] at hsub
  exact List.sublist_nil.mp hsub

/-- Two vaults whose outputs have one name and different tags, and a third one that the first output feeds. -/
def sharedPort : Composition :=
  let vault (name : Nat) (inputs outputs : List Port) : PrimitiveId × Primitive :=
    (⟨name⟩, ⟨⟨name⟩, .vault, default, "", "", ∅, inputs, outputs⟩)
  { Composition.new .zero .epoch "Shared" "" with
    primitives := .ofList
      [ vault 0 [] [⟨⟨10⟩, ⟨0⟩, .output, "asset", "Yield"⟩], vault 1 [] [⟨⟨10⟩, ⟨1⟩, .output, "debt", "Yield"⟩],
        vault 2 [⟨⟨20⟩, ⟨2⟩, .input, "asset", "Deposit"⟩] [] ]
    connections := .ofList [(⟨0⟩, ⟨⟨0⟩, ⟨10⟩, ⟨20⟩, "asset"⟩)] }

/-- The removal of the first vault, of a connection that went with it, and of a primitive that is not there. -/
def dropFirst : List (Timestamp × Edit) :=
  [(.epoch, .removePrimitive ⟨0⟩), (.epoch, .removeConnection ⟨0⟩), (.epoch, .removePrimitive ⟨9⟩)]

/-- Without its first vault the output of the second one is found, whose tag does not fit; but the connection is gone. -/
theorem sharedPort_stays_valid :
    (∀ e ∈ dropFirst, e.2.isRemoval = true) ∧ sharedPort.validate.isValid = true ∧
      ((Store.run ⟨sharedPort, {}⟩ dropFirst).composition.output? ⟨10⟩).map (·.resourceType) = some "debt" ∧
        (Store.run ⟨sharedPort, {}⟩ dropFirst).composition.validate.isValid = true := by
  have hremovals : ∀ e ∈ dropFirst, e.2.isRemoval = true := by decide
  have hvalid : sharedPort.validate.isValid = true := by decide
  exact ⟨hremovals, hvalid, by decide, ((removals_make_no_errors sharedPort).2.2 {} dropFirst hremovals).2 hvalid⟩

end Composition

end DefiComposer
