import DefiComposer.Proofs.CheckedRuns
import DefiComposer.Proofs.GraphFindings
import DefiComposer.Proofs.Places
import DefiComposer.Proofs.Reconnecting
import DefiComposer.Proofs.Removals

/-!
# Edit findings: an edit changes the report where it acts

The report of a composition is its faults, those of records and of connections, and then a warning for each primitive without
connections. In a composition that was made by edits the three parts can be followed through an edit. A connection that stays
has the findings that it had, since its ports are found as they were (`Store.connectionIssues_lasts`). A primitive has no
connections exactly when none touches it. And the records of one primitive alone decide on the findings in them.
-/

namespace DefiComposer

/-- The warning that a primitive has no connections. -/
def Primitive.orphanIssue (p : Primitive) : Issue :=
  ⟨.warning, .orphanedPrimitive, "Primitive \"" ++ p.label ++ "\" is not connected to any other primitive",
    some { primitive := some p.id }⟩

namespace Primitive

variable {p : Primitive} {parameter : String} {value : ParameterValue}

/-- A finding on a record names the record. -/
theorem parameterIssue?_location {i : Issue} (h : p.parameterIssue? parameter value = some i) :
    i.location = some { primitive := some p.id, parameter := some parameter } := by
  have hi : i ∈ (default : Composition).issuesAt (.record p parameter value) := Option.mem_toList.mpr h
  exact (Composition.issuesAt_about hi).2

/-- A record in which nothing is found takes the finding on the earlier one away. -/
theorem parameterIssues_insert (h : p.parameterIssue? parameter value = none) :
    ({ p with parameters := p.parameters.insert parameter value } : Primitive).parameterIssues =
      p.parameterIssues.filter (·.location ≠ some { primitive := some p.id, parameter := some parameter }) := by
  have hrecord : ∀ r : String × ParameterValue,
      (if decide (r.1 ≠ parameter) then p.parameterIssue? r.1 r.2 else none) = (p.parameterIssue? r.1 r.2).filter
        (·.location ≠ some { primitive := some p.id, parameter := some parameter }) := by
    intro r
    cases hi : p.parameterIssue? r.1 r.2 with
    | none => simp
    | some i => by_cases hr : r.1 = parameter <;> simp [Option.filter, parameterIssue?_location hi, hr]
  calc ({ p with parameters := p.parameters.insert parameter value } : Primitive).parameterIssues
      = (p.parameters.erase parameter).entries.filterMap fun r => p.parameterIssue? r.1 r.2 :=
        OrderedMap.filterMap_insert h
    _ = p.parameters.entries.filterMap fun r => (p.parameterIssue? r.1 r.2).filter
          (·.location ≠ some { primitive := some p.id, parameter := some parameter }) := by
        rw [OrderedMap.entries_erase, List.filterMap_filter, List.filterMap_congr fun r _ => hrecord r]
    _ = _ := by rw [parameterIssues, List.filter_filterMap]

end Primitive

namespace Composition

variable {c : Composition}

/-! ## The parts of a report -/

/-- The findings on records and on connections. -/
def faults (c : Composition) : List Issue :=
  c.primitives.values.flatMap (·.parameterIssues) ++ c.connections.values.flatMap c.connectionIssues

/-- The primitives that no connection touches. -/
def orphans (c : Composition) : List Primitive :=
  c.primitives.values.filter fun p => c.connections.values.all fun k => !p.touches k

/-- What is found on records and connections is not the lack of connections. -/
theorem kind_ne_of_mem_faults {i : Issue} (hi : i ∈ c.faults) : i.kind ≠ .orphanedPrimitive := by
  intro hkind
  rcases List.mem_append.mp hi with hi | hi
  · obtain ⟨p, -, hi⟩ := List.mem_flatMap.mp hi
    obtain ⟨r, -, hi⟩ := List.mem_filterMap.mp hi
    have hmem := Primitive.parameterIssue?_kind hi
    rw [hkind] at hmem
    exact absurd hmem (by decide)
  · obtain ⟨k, -, hi⟩ := List.mem_flatMap.mp hi
    have hmem := (connectionIssues_about hi).1
    rw [hkind] at hmem
    exact absurd hmem (by decide)

namespace WellFormed

/-- The report is the faults and then a warning for each orphan. -/
theorem validate_eq (h : c.WellFormed) : c.validate.issues = c.faults ++ c.orphans.map Primitive.orphanIssue := by
  have horphan : ∀ p ∈ c.primitives.values, c.orphanIssue? p =
      if c.connections.values.all fun k => !p.touches k then some p.orphanIssue else none := by
    intro p hp
    simp only [orphanIssue?, h.incident_eq_filter hp, List.isEmpty_iff, List.filter_eq_nil_iff, List.all_eq_true,
      Bool.not_eq_true', Bool.not_eq_true, Primitive.orphanIssue]
  rw [validate, faults, orphans, ← List.filterMap_eq_map, List.filterMap_filter, List.filterMap_congr horphan]
  rfl

/-- The primitives without connections that the validation finds, in their order. -/
theorem ofKind_orphaned_eq (h : c.WellFormed) :
    c.validate.ofKind .orphanedPrimitive = c.orphans.map Primitive.orphanIssue := by
  rw [Report.ofKind, h.validate_eq, List.filter_append, List.filter_eq_nil_iff.mpr, List.nil_append, List.filter_eq_self.mpr]
  · intro i hi
    obtain ⟨p, -, rfl⟩ := List.mem_map.mp hi
    rfl
  · intro i hi
    simpa using kind_ne_of_mem_faults hi

/-- Orphans do not matter to the verdict. -/
theorem isValid_eq (h : c.WellFormed) : c.validate.isValid = !c.faults.any (·.severity = .error) := by
  rw [Report.isValid, h.validate_eq, List.any_append]
  simp [Primitive.orphanIssue]

/-- A connection touches the primitives of its two ports and no other. -/
theorem touches_iff (h : c.WellFormed) {p q x : Primitive} (hp : p ∈ c.primitives.values) (hq : q ∈ c.primitives.values)
    (hx : x ∈ c.primitives.values) {output input : Port} (ho : output ∈ p.outputs) (hi : input ∈ q.inputs) {k : Connection}
    (hs : output.id = k.source) (ht : input.id = k.target) : x.touches k = true ↔ x.id = p.id ∨ x.id = q.id := by
  rw [Primitive.touches, Bool.or_eq_true, h.addressed.ownsPort_iff hx, h.addressed.ownsPort_iff hx, ← hs, ← ht,
    h.addressed.portOwner?_of_mem hp (p.outputs_subset ho), h.addressed.portOwner?_of_mem hq (q.inputs_subset hi),
    Option.some.injEq, Option.some.injEq, eq_comm, eq_comm (a := q.id)]

/-! ## A new value of a parameter -/

variable {id : PrimitiveId} {p : Primitive}

/-- A primitive that is put in the place of another one. -/
theorem values_insert (h : c.WellFormed) (hp : c.primitive? id = some p) (change : Primitive → Primitive) :
    (c.primitives.insert id (change p)).values = c.primitives.values.map fun q => if q.id = id then change q else q := by
  rw [OrderedMap.values, OrderedMap.entries_insert_of_get? hp, OrderedMap.values, List.map_map, List.map_map]
  exact List.map_congr_left fun e he => by simp [h.primitivesNamed e he]

/-- A record in which nothing is found takes the finding on the earlier one away, and leaves those on all other records. -/
theorem records_insert (h : c.WellFormed) (hp : c.primitive? id = some p) {parameter : String} {value : ParameterValue}
    (hnone : p.parameterIssue? parameter value = none) :
    (c.primitives.insert id { p with parameters := p.parameters.insert parameter value }).values.flatMap (·.parameterIssues) =
      (c.primitives.values.flatMap (·.parameterIssues)).filter
        (·.location ≠ some { primitive := some id, parameter := some parameter }) := by
  have hnamed : p.id = id := h.primitivesNamed (id, p) (OrderedMap.get?_eq_some_iff.mp hp)
  rw [h.values_insert hp fun p => { p with parameters := p.parameters.insert parameter value }, List.flatMap_map,
    List.filter_flatMap]
  refine List.flatMap_congr fun q hq => ?_
  by_cases hid : q.id = id
  · obtain rfl := OrderedMap.eq_of_name_eq h.primitivesNamed hq (OrderedMap.mem_values_of_get? hp) (hid.trans hnamed.symm)
    rw [if_pos hid, Primitive.parameterIssues_insert hnone, hid]
  · rw [if_neg hid, eq_comm, List.filter_eq_self]
    intro i hi
    obtain ⟨r, -, hi⟩ := List.mem_filterMap.mp hi
    simp [Primitive.parameterIssue?_location hi, hid]

/-- Whether a primitive is an orphan does not depend on its parameters. -/
theorem orphans_insert (h : c.WellFormed) (hp : c.primitive? id = some p)
    (parameters : Primitive → OrderedMap String ParameterValue) (now : Timestamp) :
    ({ c with
        primitives := c.primitives.insert id { p with parameters := parameters p }
        updatedAt := now } : Composition).orphans.map Primitive.orphanIssue = c.orphans.map Primitive.orphanIssue := by
  have hissue : ∀ q : Primitive,
      (if q.id = id then { q with parameters := parameters q } else q).orphanIssue = q.orphanIssue := by
    intro q
    split <;> rfl
  have htouches : ∀ q : Primitive,
      (if q.id = id then { q with parameters := parameters q } else q).touches = q.touches := by
    intro q
    split <;> rfl
  simp only [orphans, h.values_insert hp fun q => { q with parameters := parameters q }, List.filter_map, List.map_map,
    Function.comp_def, hissue, htouches]

/-- The findings that do not name a record of a parameter: some of those in records, and all others. -/
theorem issues_elsewhere (h : c.WellFormed) (id : PrimitiveId) (parameter : String) :
    c.validate.issues.filter (·.location ≠ some { primitive := some id, parameter := some parameter }) =
      (c.primitives.values.flatMap (·.parameterIssues)).filter
        (·.location ≠ some { primitive := some id, parameter := some parameter }) ++
      c.connections.values.flatMap c.connectionIssues ++ c.orphans.map Primitive.orphanIssue := by
  rw [h.validate_eq, faults, List.filter_append, List.filter_append]
  congr 1
  · congr 1
    refine List.filter_eq_self.mpr fun i hi => ?_
    obtain ⟨k, -, hi⟩ := List.mem_flatMap.mp hi
    simp [(connectionIssues_about hi).2]
  · refine List.filter_eq_self.mpr fun i hi => ?_
    obtain ⟨q, -, rfl⟩ := List.mem_map.mp hi
    simp [Primitive.orphanIssue]

end WellFormed

end Composition

namespace Store

variable {s : Store} {now : Timestamp} {edit : Edit} {k : Connection}

/-! ## Connections that stay -/

/-- A connection that stays has the findings that it had. -/
theorem connectionIssues_lasts (hw : s.composition.WellFormed) (hk : k ∈ s.composition.connections.values)
    (hk' : k ∈ (s.perform now edit).composition.connections.values) :
    (s.perform now edit).composition.connectionIssues k = s.composition.connectionIssues k := by
  obtain ⟨source, target, tier, hs, ht, htier, heq⟩ := hw.connectionIssues_eq hk
  obtain ⟨source', target', tier', hs', ht', htier', heq'⟩ := (s.perform_wellFormed now edit hw).connectionIssues_eq hk'
  obtain rfl := output?_lasts hw hs hs'
  obtain rfl := input?_lasts hw ht ht'
  obtain rfl := Option.some.inj (htier.symm.trans htier')
  rw [heq, heq']

/-- Where all connections stay, the findings on them do. -/
theorem connectionFaults_perform (hw : s.composition.WellFormed) (now : Timestamp) (edit : Edit)
    (hsub : s.composition.connections.values ⊆ (s.perform now edit).composition.connections.values) :
    s.composition.connections.values.flatMap (s.perform now edit).composition.connectionIssues =
      s.composition.connections.values.flatMap s.composition.connectionIssues :=
  List.flatMap_congr fun _ hk => connectionIssues_lasts hw hk (hsub hk)

/-! ## A fresh primitive -/

section

variable (hw : s.composition.WellFormed) (now : Timestamp) (kind : Kind) (position : Position)
include hw

/-- The new primitive comes last. -/
theorem values_addPrimitive : (s.addPrimitive now kind position).2.composition.primitives.values =
    s.composition.primitives.values ++ [(s.addPrimitive now kind position).1] :=
  OrderedMap.values_insert_of_not_mem (hw.fresh_id (Catalog.instantiate_fresh kind position s.composition.ids))

/-- A fresh primitive has no faults, since the defaults pass their checks. -/
theorem faults_addPrimitive : (s.addPrimitive now kind position).2.composition.faults = s.composition.faults := by
  have hrecords : (s.addPrimitive now kind position).1.parameterIssues = [] :=
    List.filterMap_eq_nil_iff.mpr fun e he =>
      (Primitive.IsConfigured.instantiate kind position s.composition.ids).parameterIssue?_eq_none he
  have hold := connectionFaults_perform hw now (.addPrimitive kind position) fun _ hk => hk
  rw [Composition.faults, values_addPrimitive hw, List.flatMap_append, List.flatMap_singleton, hrecords, List.append_nil]
  exact congrArg _ hold

/-- A fresh primitive is an orphan, since its ports are new. -/
theorem orphans_addPrimitive : (s.addPrimitive now kind position).2.composition.orphans =
    s.composition.orphans ++ [(s.addPrimitive now kind position).1] := by
  have halone : s.composition.connections.values.all
      (fun k => !(s.addPrimitive now kind position).1.touches k) = true := by
    rw [List.all_eq_true]
    intro k hk
    rw [Bool.not_eq_true']
    exact hw.touches_fresh (Catalog.instantiate_fresh kind position s.composition.ids) hk
  rw [Composition.orphans, values_addPrimitive hw, List.filter_append]
  exact congrArg _ (List.filter_cons_of_pos halone)

/-- The last finding is on a fresh primitive, that it has no connections; all others were there before. -/
theorem issues_addPrimitive :
    let added := s.addPrimitive now kind position
    added.2.validate.issues = s.validate.issues ++ [added.1.orphanIssue] ∧
      added.2.validate.isValid = s.validate.isValid := by
  intro added
  have hw' : added.2.composition.WellFormed := s.perform_wellFormed now (.addPrimitive kind position) hw
  have hfaults : added.2.composition.faults = _ := faults_addPrimitive hw now kind position
  have horphans : added.2.composition.orphans = _ := orphans_addPrimitive hw now kind position
  constructor
  · rw [validate, validate, hw'.validate_eq, hw.validate_eq, hfaults, horphans, List.map_append, List.append_assoc]
    rfl
  · rw [validate, validate, hw'.isValid_eq, hw.isValid_eq, hfaults]

end

/-! ## A new connection -/

section

variable {source target : PortId} (hw : s.composition.WellFormed) (hk : (s.connect now source target).1 = .ok k)
include hw hk

/-- A connection that an attempt answers is the last one after it. -/
theorem connections_connect :
    k.source = source ∧ k.target = target ∧
      (s.connect now source target).2.composition.connections.values = s.composition.connections.values ++ [k] := by
  obtain ⟨r, hr⟩ := exists_resolution hk
  obtain ⟨hanswer, hconnections⟩ := connect_of_resolve now hr
  obtain rfl := Except.ok.inj (hk.symm.trans hanswer)
  refine ⟨rfl, rfl, ?_⟩
  rw [hconnections, OrderedMap.values_insert_of_not_mem hw.fresh_connection]

/-- After all faults there is the one of the new connection, if its tags differ. -/
theorem faults_connect {r : Resolution} (hr : s.composition.resolve source target = .ok r) :
    (s.connect now source target).2.composition.faults = s.composition.faults ++
      if r.source.resourceType = r.target.resourceType then []
      else [Composition.mismatchIssue (some { connection := some k.id }) r.source r.target] := by
  obtain ⟨rfl, rfl, hvalues⟩ := connections_connect hw hk
  obtain ⟨hs, ht, howners, -⟩ := Composition.resolve_eq_ok_iff.mp hr
  have hsame := s.connect_primitives now k.source k.target
  have hold := connectionFaults_perform hw now (.connect k.source k.target)
    (fun _ hm => hvalues ▸ List.mem_append_left _ hm)
  have hnew : (s.connect now k.source k.target).2.composition.connectionIssues k = _ :=
    Composition.connectionIssues_of_ports (by rw [Composition.output?, hsame]; exact hs)
      (by rw [Composition.input?, hsame]; exact ht) howners
  rw [Composition.faults, hsame, hvalues, List.flatMap_append, List.flatMap_singleton, hnew, ← List.append_assoc]
  exact congrArg (_ ++ · ++ _) hold

/-- After connecting, the two primitives are without connections no longer. -/
theorem orphans_connect :
    (s.connect now source target).2.composition.orphans = s.composition.orphans.filter fun x => !x.touches k := by
  obtain ⟨-, -, hvalues⟩ := connections_connect hw hk
  simp [Composition.orphans, s.connect_primitives, hvalues, List.filter_filter, Bool.and_comm]

/-- A new connection takes the warnings of its two primitives away. If its tags differ, this is found after all that was found
of records and connections, and the composition is not valid. -/
theorem issues_connect :
    let after := (s.connect now source target).2
    ∃ p ∈ s.composition.primitives.values, ∃ q ∈ s.composition.primitives.values,
      ∃ output ∈ p.outputs, ∃ input ∈ q.inputs, output.id = source ∧ input.id = target ∧
        ∃ front, s.validate.issues = front ++ s.validate.ofKind .orphanedPrimitive ∧
          (∀ i ∈ front, i.kind ≠ .orphanedPrimitive) ∧
          after.validate.issues = front ++
            (if output.resourceType = input.resourceType then []
              else [Composition.mismatchIssue (some { connection := some k.id }) output input]) ++
            (s.validate.ofKind .orphanedPrimitive).filter (fun i =>
              i.location ≠ some { primitive := some p.id } ∧ i.location ≠ some { primitive := some q.id }) ∧
          after.validate.isValid = (s.validate.isValid && decide (output.resourceType = input.resourceType)) := by
  intro after
  have hw' : after.composition.WellFormed := s.perform_wellFormed now (.connect source target) hw
  obtain ⟨hsource, htarget, -⟩ := connections_connect hw hk
  obtain ⟨r, hr⟩ := exists_resolution hk
  obtain ⟨hs, ht, -⟩ := Composition.resolve_eq_ok_iff.mp hr
  obtain ⟨p, hp, hout, hsid⟩ := Composition.output?_some hs
  obtain ⟨q, hq, hin, htid⟩ := Composition.input?_some ht
  have hfaults : after.composition.faults = _ := faults_connect hw hk hr
  refine ⟨p, hp, q, hq, r.source, hout, r.target, hin, hsid, htid, s.composition.faults, ?_,
    fun _ => Composition.kind_ne_of_mem_faults, ?_, ?_⟩
  · rw [validate, hw.validate_eq, hw.ofKind_orphaned_eq]
  · have horphans : after.composition.orphans.map Primitive.orphanIssue =
        (s.composition.orphans.map Primitive.orphanIssue).filter (fun i =>
          i.location ≠ some { primitive := some p.id } ∧ i.location ≠ some { primitive := some q.id }) := by
      rw [orphans_connect hw hk, List.filter_map]
      refine congrArg _ (List.filter_congr fun x hx => ?_)
      have htouches := hw.touches_iff hp hq (List.mem_filter.mp hx).1 hout hin (hsid.trans hsource.symm)
        (htid.trans htarget.symm)
      rw [Bool.eq_iff_iff, Bool.not_eq_true', ← Bool.not_eq_true, htouches]
      simp [Primitive.orphanIssue]
    rw [validate, validate, hw'.validate_eq, hw.ofKind_orphaned_eq, hfaults, horphans]
  · rw [validate, validate, hw'.isValid_eq, hw.isValid_eq, hfaults, List.any_append, Bool.not_or]
    congr 1
    split <;> simp [Composition.mismatchIssue, *]

end

/-! ## A record that is stored -/

/-- Raw input that is stored takes the findings on the record away that was there before, and leaves all others. -/
theorem issues_setParameterFromJson (hw : s.composition.WellFormed) {id : PrimitiveId} {parameter : String} {raw : Json}
    {value : ParameterValue} (h : (s.setParameterFromJson now id parameter raw).1 = .ok value) :
    (s.setParameterFromJson now id parameter raw).2.validate.issues =
      s.validate.issues.filter (·.location ≠ some { primitive := some id, parameter := some parameter }) := by
  have hw' := s.perform_wellFormed now (.setParameterFromJson id parameter raw) hw
  have hold := connectionFaults_perform hw now (.setParameterFromJson id parameter raw)
  obtain ⟨p, hp, hread, hafter⟩ := setParameterFromJson_of_ok h
  rw [perform, hafter] at hw' hold
  obtain ⟨d, hd, -, hc⟩ := readParameter_ok hp hread
  have hrequired := p.kind.required d (Kind.parameter?_eq_some_iff.mp hd).1
  have hnone := Primitive.parameterIssue?_eq_none (Parameter.usable_of_check hrequired hc).present hd hc
  rw [validate, validate, hafter, hw'.validate_eq, hw.issues_elsewhere, Composition.faults, hw.records_insert hp hnone,
    hw.orphans_insert hp fun p => p.parameters.insert parameter value]
  exact congrArg (_ ++ · ++ _) (hold fun _ hk => hk)

/-! ## Three edits -/

/-- In a composition that was made by edits, three edits change the report where they act. A fresh primitive of any kind adds
the warning that it has no connections, at the end, and leaves the verdict. A new connection takes the warnings of its two
primitives away; if its tags differ, this is the last finding before the warnings that are left, and the verdict is no longer
that the composition is valid. Raw input that is stored takes the findings on its record away. All else stays, in its order. -/
theorem edits_report_locally (h : s.composition.Reachable) (now : Timestamp) :
    (∀ kind position,
      let added := s.addPrimitive now kind position
      added.2.validate.issues = s.validate.issues ++ [added.1.orphanIssue] ∧
        added.2.validate.isValid = s.validate.isValid) ∧
      (∀ source target k, (s.connect now source target).1 = .ok k →
        let after := (s.connect now source target).2
        ∃ p ∈ s.composition.primitives.values, ∃ q ∈ s.composition.primitives.values,
          ∃ output ∈ p.outputs, ∃ input ∈ q.inputs, output.id = source ∧ input.id = target ∧
            ∃ front, s.validate.issues = front ++ s.validate.ofKind .orphanedPrimitive ∧
              (∀ i ∈ front, i.kind ≠ .orphanedPrimitive) ∧
              after.validate.issues = front ++
                (if output.resourceType = input.resourceType then []
                  else [Composition.mismatchIssue (some { connection := some k.id }) output input]) ++
                (s.validate.ofKind .orphanedPrimitive).filter (fun i =>
                  i.location ≠ some { primitive := some p.id } ∧ i.location ≠ some { primitive := some q.id }) ∧
              after.validate.isValid = (s.validate.isValid && decide (output.resourceType = input.resourceType))) ∧
      ∀ id parameter raw value, (s.setParameterFromJson now id parameter raw).1 = .ok value →
        (s.setParameterFromJson now id parameter raw).2.validate.issues =
          s.validate.issues.filter (·.location ≠ some { primitive := some id, parameter := some parameter }) :=
  ⟨issues_addPrimitive h.wellFormed now, fun _ _ _ => issues_connect h.wellFormed,
    fun _ _ _ _ => issues_setParameterFromJson h.wellFormed⟩

/-- A vault without a strategy and a lending pool. -/
def idleVault : Store :=
  (Store.new .zero .epoch "Vault" "").run
    [ (.epoch, .addPrimitive .vault default), (.epoch, .addPrimitive .lendingPool default),
      (.epoch, .setParameter ⟨0⟩ "strategy" .unset) ]

/-- A staking pool comes with its warning; the yield of the vault may be collateral, but with another tag; and a strategy that
is stored is no longer missing. -/
theorem idleVault_edits :
    idleVault.composition.Reachable ∧
      idleVault.validate.issues.map (·.kind) = [.missingParameter, .orphanedPrimitive, .orphanedPrimitive] ∧
      (idleVault.addPrimitive .epoch .staking default).2.validate.issues.map (·.kind) =
        [.missingParameter, .orphanedPrimitive, .orphanedPrimitive, .orphanedPrimitive] ∧
      (∃ k, (idleVault.connect .epoch ⟨2⟩ ⟨4⟩).1 = .ok k ∧
        (idleVault.connect .epoch ⟨2⟩ ⟨4⟩).2.validate.issues.map (·.kind) = [.missingParameter, .resourceTypeMismatch] ∧
          (idleVault.connect .epoch ⟨2⟩ ⟨4⟩).2.validate.isValid = false) ∧
      (idleVault.setParameterFromJson .epoch ⟨0⟩ "strategy" (.string "aggressive")).1 = .ok (.enumTag "aggressive") ∧
        (idleVault.setParameterFromJson .epoch ⟨0⟩ "strategy" (.string "aggressive")).2.validate.issues.map (·.kind) =
          [.orphanedPrimitive, .orphanedPrimitive] := by
  have hreachable : idleVault.composition.Reachable := ⟨_, _, _, _, _, rfl⟩
  have hkinds : idleVault.validate.issues.map (·.kind) = [.missingParameter, .orphanedPrimitive, .orphanedPrimitive] := by
    decide
  obtain ⟨hadded, hconnected, hstored⟩ := edits_report_locally hreachable .epoch
  refine ⟨hreachable, hkinds, ?_, ?_, ?_⟩
  · rw [(hadded .staking default).1, List.map_append, hkinds]
    rfl
  · obtain ⟨k, hk⟩ : ∃ k, (idleVault.connect .epoch ⟨2⟩ ⟨4⟩).1 = .ok k := ⟨_, rfl⟩
    obtain ⟨p, -, q, -, output, -, input, -, -, -, front, -, -, -, hvalid⟩ := hconnected _ _ k hk
    rw [show idleVault.validate.isValid = false by decide] at hvalid
    exact ⟨k, hk, by decide, hvalid⟩
  · have haccepted : (idleVault.setParameterFromJson .epoch ⟨0⟩ "strategy" (.string "aggressive")).1 =
        .ok (.enumTag "aggressive") := by
      decide
    refine ⟨haccepted, ?_⟩
    rw [hstored _ _ _ _ haccepted]
    decide

end Store

end DefiComposer
