import DefiComposer.Proofs.Acceptance
import DefiComposer.Proofs.Numbering
import DefiComposer.Proofs.Removals

/-!
# Frames: what an edit leaves as it is

An edit is about one primitive or one connection at most, and a removal of a primitive reaches the connections at its ports.
What it is not about stays as it is and in its order (`Composition.AgreeOutside`); this composes, so it holds of runs
(`Store.run_agreeOutside`). A primitive that is changed stays in its place, with its name, its kind and its ports, and with
just those fields changed that the edit gives (`Primitive.Patched`, `Primitive.Stored`).

Every primitive after a run has the name, the kind and the ports of one that was there before or of one that an edit of the
run added (`Store.exists_origin`). Since no name is given twice, this is the one that has its name (`Store.run_frame`).
-/

namespace DefiComposer

/-! ## What an edit is about -/

namespace Edit

/-- Whether an edit is about a primitive: the one that it names or adds. -/
def isAbout (c : Composition) (edit : Edit) (id : PrimitiveId) : Bool :=
  match edit with
  | .addPrimitive _ _ => id = ⟨c.ids.nextPrimitive⟩
  | .updatePrimitive named _ | .removePrimitive named | .movePrimitive named _ | .setParameter named _ _
  | .setParameterFromJson named _ _ => id = named
  | .connect _ _ | .removeConnection _ => false

/-- Whether an edit reaches a connection: the one that it names or makes, or one at a port of the primitive that it removes. -/
def reaches (c : Composition) (edit : Edit) (k : Connection) : Bool :=
  match edit with
  | .connect _ _ => k.id = ⟨c.ids.nextConnection⟩
  | .removeConnection id => k.id = id
  | .removePrimitive id => c.isIncident id k
  | .addPrimitive _ _ | .updatePrimitive _ _ | .movePrimitive _ _ | .setParameter _ _ _ | .setParameterFromJson _ _ _ => false

end Edit

namespace Composition

/-- Two compositions agree but for some primitives and some connections: in what they are called and when they were made, and
in all other parts, which stand in the same order. -/
structure AgreeOutside (about : PrimitiveId → Bool) (reached : Connection → Bool) (c c' : Composition) : Prop where
  id : c'.id = c.id
  name : c'.name = c.name
  description : c'.description = c.description
  createdAt : c'.createdAt = c.createdAt
  primitives : c'.primitives.values.filter (fun p => !about p.id) = c.primitives.values.filter (fun p => !about p.id)
  connections : c'.connections.values.filter (fun k => !reached k) = c.connections.values.filter (fun k => !reached k)

variable {c c' c'' : Composition} {about about' : PrimitiveId → Bool} {reached reached' : Connection → Bool}

namespace AgreeOutside

theorem refl (about : PrimitiveId → Bool) (reached : Connection → Bool) (c : Composition) : AgreeOutside about reached c c :=
  ⟨rfl, rfl, rfl, rfl, rfl, rfl⟩

/-- Agreement goes along two steps, outside of what either is about. -/
theorem trans (h : AgreeOutside about reached c c') (h' : AgreeOutside about' reached' c' c'') :
    AgreeOutside (fun id => about id || about' id) (fun k => reached k || reached' k) c c'' where
  id := h'.id.trans h.id
  name := h'.name.trans h.name
  description := h'.description.trans h.description
  createdAt := h'.createdAt.trans h.createdAt
  primitives := by
    simp only [Bool.not_or, ← List.filter_filter, h'.primitives]
    rw [List.filter_comm, h.primitives, List.filter_comm]
  connections := by
    simp only [Bool.not_or, ← List.filter_filter, h'.connections]
    rw [List.filter_comm, h.connections, List.filter_comm]

end AgreeOutside

/-! ## One change of a composition -/

/-- An update changes the value of one name, in its place. -/
theorem values_update (h : c.WellFormed) (now : Timestamp) (id : PrimitiveId) (change : Primitive → Primitive) :
    (c.update now id change).2.primitives.values = c.primitives.values.map fun p => if p.id = id then change p else p := by
  unfold update
  split
  · rename_i hp
    -- no primitive has the name
    refine ((List.map_congr_left fun p hm => ?_).trans (List.map_id _)).symm
    have hne : p.id ≠ id := by
      rintro rfl
      rw [primitive?, OrderedMap.get?_of_mem_values h.primitivesNamed hm] at hp
      cases hp
    rw [if_neg hne, id_eq]
  · rename_i p hp
    rw [OrderedMap.values, OrderedMap.entries_insert_of_get? hp change, List.map_map, OrderedMap.values, List.map_map]
    refine List.map_congr_left fun e he => ?_
    simp only [Function.comp_apply, h.primitivesNamed e he]

/-- A change of one primitive is about its name alone. -/
theorem agreeOutside_update (h : c.WellFormed) (now : Timestamp) (id : PrimitiveId) {change : Primitive → Primitive}
    (hc : ∀ p, (change p).frame = p.frame) :
    AgreeOutside (fun named => named = id) (fun _ => false) c (c.update now id change).2 := by
  have hmeta : (c.update now id change).2.id = c.id ∧ (c.update now id change).2.name = c.name ∧
      (c.update now id change).2.description = c.description ∧ (c.update now id change).2.createdAt = c.createdAt := by
    unfold update
    split <;> exact ⟨rfl, rfl, rfl, rfl⟩
  obtain ⟨hid, hname, hdescription, hcreated⟩ := hmeta
  refine ⟨hid, hname, hdescription, hcreated, ?_, by rw [update_connections]⟩
  rw [values_update h]
  induction c.primitives.values with
  | nil => rfl
  | cons p ps ih =>
    have hpid : (change p).id = p.id := (Primitive.frame_eq_iff.mp (hc p)).1
    by_cases hp : p.id = id
    · rw [List.map_cons, if_pos hp, List.filter_cons_of_neg (by simp [hpid, hp]), List.filter_cons_of_neg (by simp [hp]), ih]
    · rw [List.map_cons, if_neg hp, List.filter_cons_of_pos (by simp [hp]), List.filter_cons_of_pos (by simp [hp]), ih]

/-- Adding is about the new name alone. -/
theorem agreeOutside_addPrimitive (h : c.WellFormed) (now : Timestamp) (kind : Kind) (position : Position) :
    AgreeOutside (fun named => named = ⟨c.ids.nextPrimitive⟩) (fun _ => false) c (c.addPrimitive now kind position).2 := by
  have hfresh := Catalog.instantiate_fresh kind position c.ids
  refine ⟨rfl, rfl, rfl, rfl, ?_, rfl⟩
  rw [addPrimitive, OrderedMap.values_insert_of_not_mem (h.fresh_id hfresh), List.filter_append,
    List.filter_cons_of_neg (by simp [hfresh.named]), List.filter_nil, List.append_nil]

/-- Removing a primitive is about its name and the connections at it. -/
theorem agreeOutside_removePrimitive (h : c.WellFormed) (now : Timestamp) (id : PrimitiveId) :
    AgreeOutside (fun named => named = id) (c.isIncident id) c (c.removePrimitive now id).2 := by
  have hmeta : (c.removePrimitive now id).2.id = c.id ∧ (c.removePrimitive now id).2.name = c.name ∧
      (c.removePrimitive now id).2.description = c.description ∧
        (c.removePrimitive now id).2.createdAt = c.createdAt := by
    unfold removePrimitive
    split <;> exact ⟨rfl, rfl, rfl, rfl⟩
  obtain ⟨hid, hname, hdescription, hcreated⟩ := hmeta
  refine ⟨hid, hname, hdescription, hcreated, ?_, ?_⟩
  · rw [removePrimitive_primitives, OrderedMap.values_erase h.primitivesNamed, List.filter_filter]
    refine List.filter_congr fun p _ => ?_
    simp
  · rw [removePrimitive_connections, OrderedMap.values_filter, List.filter_filter]
    simp only [Bool.and_self]

/-- Connecting is about the new connection alone. -/
theorem agreeOutside_connect (h : c.WellFormed) (now : Timestamp) (source target : PortId) :
    AgreeOutside (fun _ => false) (fun k => k.id = ⟨c.ids.nextConnection⟩) c (c.connect now source target).2 := by
  cases hr : c.resolve source target with
  | error e =>
    rw [connect_of_error hr]
    exact .refl _ _ c
  | ok r =>
    rw [connect_of_ok hr]
    refine ⟨rfl, rfl, rfl, rfl, rfl, ?_⟩
    dsimp only
    rw [OrderedMap.values_insert_of_not_mem h.fresh_connection, List.filter_append, List.filter_cons_of_neg (by simp),
      List.filter_nil, List.append_nil]

theorem agreeOutside_removeConnection (h : c.WellFormed) (now : Timestamp) (id : ConnectionId) :
    AgreeOutside (fun _ => false) (fun k => k.id = id) c (c.removeConnection now id).2 := by
  unfold removeConnection
  split
  · exact .refl _ _ c
  · refine ⟨rfl, rfl, rfl, rfl, rfl, ?_⟩
    dsimp only
    rw [OrderedMap.values_erase h.connectionsNamed, List.filter_filter]
    refine List.filter_congr fun k _ => ?_
    simp

end Composition

/-! ## One edit of a store -/

namespace Store

variable {s : Store} {now : Timestamp} {edit : Edit}

/-- An edit leaves as it is what it is not about. -/
theorem perform_agreeOutside (h : s.composition.WellFormed) (now : Timestamp) (edit : Edit) :
    s.composition.AgreeOutside (edit.isAbout s.composition) (edit.reaches s.composition)
      (s.perform now edit).composition := by
  have hupdate : ∀ (id : PrimitiveId) {change : Primitive → Primitive}, (∀ p, (change p).frame = p.frame) →
      s.composition.AgreeOutside (fun named => named = id) (fun _ => false)
        (s.commit (·.update now id change)).2.composition :=
    fun id _ hc => s.commit_keeps (.refl _ _ _) (Composition.agreeOutside_update h now id hc)
  cases edit with
  | addPrimitive kind position => exact Composition.agreeOutside_addPrimitive h now kind position
  | updatePrimitive id patch => exact hupdate id fun _ => rfl
  | removePrimitive id => exact s.commitRemoval_keeps (.refl _ _ _) (Composition.agreeOutside_removePrimitive h now id)
  | movePrimitive id position => exact hupdate id fun _ => rfl
  | setParameter id parameter value => exact hupdate id fun _ => rfl
  | setParameterFromJson id parameter raw =>
    rcases s.setParameterFromJson_cases now id parameter raw with hs | ⟨value, -, hs⟩
    · rw [perform, hs]
      exact .refl _ _ _
    · rw [perform, hs]
      exact hupdate id fun _ => rfl
  | connect source target => exact s.commit_keeps (.refl _ _ _) (Composition.agreeOutside_connect h now source target)
  | removeConnection id => exact s.commitRemoval_keeps (.refl _ _ _) (Composition.agreeOutside_removeConnection h now id)

end Store

/-! ## What becomes of the primitive that an edit changes -/

namespace OrderedMap

/-- Putting a value changes one entry: it takes the place of the one under its key, or goes to the end. -/
theorem entries_insert {κ ν : Type} [DecidableEq κ] (m : OrderedMap κ ν) (k : κ) (v : ν) :
    (m.insert k v).entries =
      if k ∈ m.keys then m.entries.map fun e => (e.1, if e.1 = k then v else e.2) else m.entries ++ [(k, v)] := by
  split
  · rename_i hk
    exact put_of_mem m.distinct hk
  · rename_i hk
    exact put_of_not_mem hk

end OrderedMap

namespace Primitive

/-- What a patch makes of a primitive: it has the fields that the patch gives, and its own for the others. -/
structure Patched (p : Primitive) (patch : PrimitivePatch) (q : Primitive) : Prop where
  frame : q.frame = p.frame
  label : q.label = patch.label.getD p.label
  description : q.description = patch.description.getD p.description
  position : q.position = patch.position.getD p.position
  parameters : q.parameters = patch.parameters.getD p.parameters

/-- What a value that is stored makes of a primitive: one entry of its parameters is that of the value, in its place if there
was one and at the end otherwise. -/
structure Stored (p : Primitive) (parameter : String) (value : ParameterValue) (q : Primitive) : Prop where
  frame : q.frame = p.frame
  label : q.label = p.label
  description : q.description = p.description
  position : q.position = p.position
  parameters : q.parameters.entries =
    if parameter ∈ p.parameters.keys then
      p.parameters.entries.map fun e => (e.1, if e.1 = parameter then value else e.2)
    else p.parameters.entries ++ [(parameter, value)]

/-- A patch replaces what it brings and keeps the rest. -/
theorem apply_patched (p : Primitive) (patch : PrimitivePatch) : p.Patched patch (p.apply patch) :=
  ⟨rfl, rfl, rfl, rfl, rfl⟩

/-- Storing a parameter keeps the others, and all else. -/
theorem insert_stored (p : Primitive) (parameter : String) (value : ParameterValue) :
    p.Stored parameter value { p with parameters := p.parameters.insert parameter value } :=
  ⟨rfl, rfl, rfl, rfl, p.parameters.entries_insert parameter value⟩

end Primitive

/-- A primitive stands in the place of the one of a name, and the others are as they were. -/
def Composition.Replaces (c : Composition) (id : PrimitiveId) (q : Primitive) (c' : Composition) : Prop :=
  c'.primitives.values = c.primitives.values.map fun p => if p.id = id then q else p

namespace Store

variable {s : Store} {id : PrimitiveId} {p : Primitive}

/-- Committing a change replaces the primitive by what the change makes of it. -/
theorem commit_update_replaces (h : s.composition.WellFormed) (hp : s.composition.primitive? id = some p) (now : Timestamp)
    (change : Primitive → Primitive) :
    s.composition.Replaces id (change p) (s.commit (·.update now id change)).2.composition := by
  obtain ⟨hanswer, -⟩ := Composition.update_of_found hp now change
  rw [commit_of_ok (·.update now id change) hanswer, Composition.Replaces, Composition.values_update h]
  refine List.map_congr_left fun r hr => ?_
  by_cases hid : r.id = id
  · have hrp : r = p :=
      OrderedMap.eq_of_name_eq h.primitivesNamed hr (OrderedMap.mem_values_of_get? hp)
        (hid.trans ((OrderedMap.get?_eq_some_iff_name h.primitivesNamed).mp hp).2.symm)
    rw [if_pos hid, if_pos hid, hrp]
  · rw [if_neg hid, if_neg hid]

/-- A value that is accepted is stored in its primitive, and nothing else changes. -/
theorem setParameterFromJson_replaces (h : s.composition.WellFormed) (hp : s.composition.primitive? id = some p)
    {now : Timestamp} {parameter : String} {raw : Json} {value : ParameterValue}
    (hok : (s.setParameterFromJson now id parameter raw).1 = .ok value) :
    s.composition.Replaces id { p with parameters := p.parameters.insert parameter value }
      (s.perform now (.setParameterFromJson id parameter raw)).composition := by
  rw [setParameterFromJson_answer] at hok
  have hset : (s.setParameterFromJson now id parameter raw).2 = (s.setParameter now id parameter value).2 := by
    simp only [setParameterFromJson, hok]
    split <;> rename_i hs <;> rw [hs]
  rw [perform, hset]
  exact commit_update_replaces h hp now _

/-! ## Runs -/

/-- Whether some edit of a run is about a primitive. -/
def isAboutAlong (s : Store) : List (Timestamp × Edit) → PrimitiveId → Bool
  | [], _ => false
  | e :: edits, id => e.2.isAbout s.composition id || (s.perform e.1 e.2).isAboutAlong edits id

/-- Whether some edit of a run reaches a connection. -/
def reachesAlong (s : Store) : List (Timestamp × Edit) → Connection → Bool
  | [], _ => false
  | e :: edits, k => e.2.reaches s.composition k || (s.perform e.1 e.2).reachesAlong edits k

/-- A run leaves as it is what none of its edits is about. -/
theorem run_agreeOutside (h : s.composition.WellFormed) (edits : List (Timestamp × Edit)) :
    s.composition.AgreeOutside (s.isAboutAlong edits) (s.reachesAlong edits) (s.run edits).composition := by
  induction edits generalizing s with
  | nil => exact .refl _ _ _
  | cons e edits ih => exact (perform_agreeOutside h e.1 e.2).trans (ih (s.perform_wellFormed e.1 e.2 h))

/-- An edit of a run added a primitive that has the name, the kind and the ports of a given one. -/
def Added (s : Store) (edits : List (Timestamp × Edit)) (q : Primitive) : Prop :=
  ∃ before now kind position after, edits = before ++ (now, Edit.addPrimitive kind position) :: after ∧
    ((s.run before).addPrimitive now kind position).1.frame = q.frame

variable {q : Primitive} {edits : List (Timestamp × Edit)}

/-- What was added along a run was added along a longer one. -/
theorem Added.append (h : s.Added edits q) (more : List (Timestamp × Edit)) : s.Added (edits ++ more) q := by
  obtain ⟨before, now, kind, position, after, rfl, hf⟩ := h
  exact ⟨before, now, kind, position, after ++ more, by rw [List.append_assoc, List.cons_append], hf⟩

/-- What is there after an edit was there before, with its name, its kind and its ports, or was added by it. -/
theorem exists_origin_perform {now : Timestamp} {edit : Edit} (hq : q ∈ (s.perform now edit).composition.primitives.values) :
    (∃ p ∈ s.composition.primitives.values, p.frame = q.frame) ∨
      ∃ kind position, edit = .addPrimitive kind position ∧ (s.addPrimitive now kind position).1 = q := by
  rcases mem_values_perform hq with hq | hmade
  · exact Or.inl ⟨q, hq, rfl⟩
  · cases hmade with
    | added kind position => exact Or.inr ⟨kind, position, rfl, rfl⟩
    | patched found patch => exact Or.inl ⟨_, OrderedMap.mem_values_of_get? found, rfl⟩
    | moved found position => exact Or.inl ⟨_, OrderedMap.mem_values_of_get? found, rfl⟩
    | stored found parameter value => exact Or.inl ⟨_, OrderedMap.mem_values_of_get? found, rfl⟩
    | read found accepted => exact Or.inl ⟨_, OrderedMap.mem_values_of_get? found, rfl⟩

/-- What is there after a run was there before, with its name, its kind and its ports, or was added along it. -/
theorem exists_origin (s : Store) (edits : List (Timestamp × Edit)) :
    ∀ q ∈ (s.run edits).composition.primitives.values,
      (∃ p ∈ s.composition.primitives.values, p.frame = q.frame) ∨ s.Added edits q := by
  induction edits using List.reverseRecOn with
  | nil => exact fun q hq => Or.inl ⟨q, hq, rfl⟩
  | append_singleton edits e ih =>
    intro q hq
    rw [run_concat] at hq
    rcases exists_origin_perform hq with ⟨r, hr, hf⟩ | ⟨kind, position, he, hadd⟩
    · rcases ih r hr with ⟨p, hp, hpf⟩ | ⟨before, now, kind, position, after, heq, hadded⟩
      · exact Or.inl ⟨p, hp, hpf.trans hf⟩
      · exact Or.inr (Added.append ⟨before, now, kind, position, after, heq, hadded.trans hf⟩ [e])
    · refine Or.inr ⟨edits, e.1, kind, position, [], ?_, congrArg Primitive.frame hadd⟩
      rw [← he]

/-- No run takes a name back: the next one is above all that were given. -/
theorem nextPrimitive_le_run (s : Store) (edits : List (Timestamp × Edit)) :
    s.composition.ids.nextPrimitive ≤ (s.run edits).composition.ids.nextPrimitive := by
  rw [← (s.trace_between edits).primitives.2]
  exact Nat.le_add_right _ _

/-- A primitive that is there before and after a run keeps its kind and its ports. -/
theorem run_frame (h : s.composition.WellFormed) (hp : p ∈ s.composition.primitives.values)
    (hq : q ∈ (s.run edits).composition.primitives.values) (hid : q.id = p.id) : q.frame = p.frame := by
  rcases s.exists_origin edits q hq with ⟨r, hr, hf⟩ | ⟨before, now, kind, position, after, -, hf⟩
  · have hrid : r.id = p.id := (Primitive.frame_eq_iff.mp hf).1.trans hid
    rw [← hf, OrderedMap.eq_of_name_eq h.primitivesNamed hr hp hrid]
  · -- what was added has a name above those that were given before
    have hname : ((s.run before).addPrimitive now kind position).1.id = ⟨(s.run before).composition.ids.nextPrimitive⟩ :=
      (Catalog.instantiate_fresh kind position (s.run before).composition.ids).named
    have hnext := s.nextPrimitive_le_run before
    have hbelow := h.primitivesBelow p hp
    rw [← hid, ← (Primitive.frame_eq_iff.mp hf).1, hname] at hbelow
    exact absurd hbelow (Nat.not_lt.mpr hnext)

/-- What edits leave as it is. An edit leaves the composition's name, description and moment, and every primitive and connection
that it is not about, in their order. A primitive that it changes stays in its place and keeps its name, its kind and its
ports; a patch changes the fields that it gives, a move the position, and a stored value one entry of the parameters. So along
a run all stays that no edit is about, a primitive that survives keeps its kind and its ports, and these are the ones that it
was added with if it was not there before. -/
theorem edits_keep_frames (h : s.composition.Reachable) :
    (∀ now edit, s.composition.AgreeOutside (edit.isAbout s.composition) (edit.reaches s.composition)
        (s.perform now edit).composition) ∧
      (∀ now id p, s.composition.primitive? id = some p →
        (∀ patch, ∃ q, p.Patched patch q ∧
          s.composition.Replaces id q (s.perform now (.updatePrimitive id patch)).composition) ∧
        (∀ position, s.composition.Replaces id { p with position } (s.perform now (.movePrimitive id position)).composition) ∧
        (∀ parameter value, ∃ q, p.Stored parameter value q ∧
          s.composition.Replaces id q (s.perform now (.setParameter id parameter value)).composition) ∧
        ∀ parameter raw value, (s.setParameterFromJson now id parameter raw).1 = .ok value →
          ∃ q, p.Stored parameter value q ∧
            s.composition.Replaces id q (s.perform now (.setParameterFromJson id parameter raw)).composition) ∧
      ∀ edits, s.composition.AgreeOutside (s.isAboutAlong edits) (s.reachesAlong edits) (s.run edits).composition ∧
        (∀ p ∈ s.composition.primitives.values, ∀ q ∈ (s.run edits).composition.primitives.values, q.id = p.id →
          q.frame = p.frame) ∧
        ∀ q ∈ (s.run edits).composition.primitives.values,
          (∃ p ∈ s.composition.primitives.values, p.frame = q.frame) ∨ s.Added edits q := by
  have hw := h.wellFormed
  refine ⟨fun now edit => perform_agreeOutside hw now edit, fun now id p hp => ⟨?_, ?_, ?_, ?_⟩, fun edits => ⟨?_, ?_, ?_⟩⟩
  · exact fun patch => ⟨_, p.apply_patched patch, commit_update_replaces hw hp now _⟩
  · exact fun position => commit_update_replaces hw hp now _
  · exact fun parameter value => ⟨_, p.insert_stored parameter value, commit_update_replaces hw hp now _⟩
  · exact fun parameter raw value hok =>
      ⟨_, p.insert_stored parameter value, setParameterFromJson_replaces hw hp hok⟩
  · exact run_agreeOutside hw edits
  · exact fun p hp q hq hid => run_frame hw hp hq hid
  · exact s.exists_origin edits

/-- A pool that lends to a vault. -/
def savings : Store :=
  (Store.new .zero .epoch "Savings" "").run
    [ (.epoch, .addPrimitive .lendingPool default), (.epoch, .addPrimitive .vault default),
      (.epoch, .connect ⟨2⟩ ⟨4⟩) ]

/-- The vault gets a label, then another strategy, and then the pool goes. -/
def savingsEdits : List (Timestamp × Edit) :=
  [ (.epoch, .updatePrimitive ⟨1⟩ { label := some "Nest egg" }),
    (.epoch, .setParameterFromJson ⟨1⟩ "strategy" (.string "aggressive")), (.epoch, .removePrimitive ⟨0⟩) ]

/-- The label is all that the patch changes of the vault, the strategy all that the stored value changes, and after the whole
run the vault has its kind and its ports. -/
theorem savings_keep_frames :
    savings.composition.Reachable ∧
      ∃ vault, savings.composition.primitive? ⟨1⟩ = some vault ∧
        (∃ q, (q.label = "Nest egg" ∧ q.description = vault.description ∧ q.frame = vault.frame) ∧
          savings.composition.Replaces ⟨1⟩ q
            (savings.perform .epoch (.updatePrimitive ⟨1⟩ { label := some "Nest egg" })).composition) ∧
        (∃ q, vault.Stored "strategy" (.enumTag "aggressive") q ∧
          savings.composition.Replaces ⟨1⟩ q
            (savings.perform .epoch (.setParameterFromJson ⟨1⟩ "strategy" (.string "aggressive"))).composition) ∧
        ∃ q, (savings.run savingsEdits).composition.primitives.values = [q] ∧ q.frame = vault.frame := by
  have hr : savings.composition.Reachable := ⟨_, _, _, _, _, rfl⟩
  obtain ⟨-, heffects, hruns⟩ := edits_keep_frames hr
  refine ⟨hr, _, rfl, ?_, ?_, _, rfl, ?_⟩
  · obtain ⟨q, hpatched, hreplaces⟩ := (heffects .epoch ⟨1⟩ _ rfl).1 { label := some "Nest egg" }
    exact ⟨q, ⟨hpatched.label, hpatched.description, hpatched.frame⟩, hreplaces⟩
  · exact (heffects .epoch ⟨1⟩ _ rfl).2.2.2 "strategy" (.string "aggressive") (.enumTag "aggressive") rfl
  · exact (hruns savingsEdits).2.1 _ (List.mem_cons_of_mem _ List.mem_cons_self) _ List.mem_cons_self rfl

end Store

end DefiComposer
