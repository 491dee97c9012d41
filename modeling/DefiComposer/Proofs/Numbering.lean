import DefiComposer.Proofs.WellFormed

/-!
# Numbering: the names that a run hands out

Only two edits hand out names: adding a primitive, which names it and its ports, and an accepted attempt to connect, which
names the connection. Each takes the next numbers of the counters and moves them by as many (`Store.issued_between`). So the
numbers handed out along a run are those from the first counters to the last, each once and in their order, and none of them
comes back after its owner is gone (`Store.trace_between`). An edit that fails changes nothing at all
(`Store.perform_of_fails`). New entries of the two maps go to the end under numbers above all others, and nothing moves an
entry, so the maps stay in the order of the numbers (`Store.perform_inOrder`).
-/

namespace DefiComposer

/-! ## Consecutive numbers -/

/-- Numbers that start at `first` and follow one after another up to `next`, which is not among them. -/
def Consecutive (first next : Nat) (numbers : List Nat) : Prop :=
  numbers = List.range' first numbers.length ∧ first + numbers.length = next

namespace Consecutive

variable {first next last : Nat} {numbers numbers' : List Nat}

theorem nil (first : Nat) : Consecutive first first [] := ⟨rfl, rfl⟩

theorem single (first : Nat) : Consecutive first (first + 1) [first] := ⟨rfl, rfl⟩

/-- Numbers counted up from a first one are consecutive. -/
theorem range' (first n : Nat) : Consecutive first (first + n) (List.range' first n) := by
  constructor <;> rw [List.length_range']

/-- Consecutive numbers, and then those that follow them. -/
theorem append (h : Consecutive first next numbers) (h' : Consecutive next last numbers') :
    Consecutive first last (numbers ++ numbers') := by
  obtain ⟨hn, rfl⟩ := h
  obtain ⟨hn', rfl⟩ := h'
  refine ⟨?_, by rw [List.length_append, Nat.add_assoc]⟩
  rw [List.length_append, ← List.range'_append_1, ← hn, ← hn']

theorem ascending (h : Consecutive first next numbers) : numbers.Pairwise (· < ·) := by
  rw [h.1]
  exact List.pairwise_lt_range'

/-- From zero on, the numbers up to `next` are all numbers below it. -/
theorem eq_range (h : Consecutive 0 next numbers) : numbers = List.range next := by
  obtain ⟨hn, hlast⟩ := h
  rw [Nat.zero_add] at hlast
  rw [hn, List.range_eq_range', hlast]

end Consecutive

/-! ## The names of an edit -/

/-- Names that are handed out. -/
structure Issued where
  primitives : List PrimitiveId := []
  ports : List PortId := []
  connections : List ConnectionId := []

/-- The names are those from the counters `ids` up to the counters `ids'`, each kind in order. -/
structure Issued.Between (i : Issued) (ids ids' : IdSupply) : Prop where
  primitives : Consecutive ids.nextPrimitive ids'.nextPrimitive (i.primitives.map (·.val))
  ports : Consecutive ids.nextPort ids'.nextPort (i.ports.map (·.val))
  connections : Consecutive ids.nextConnection ids'.nextConnection (i.connections.map (·.val))

/-- Where no name is handed out, the counters stay. -/
theorem Issued.between_none (ids : IdSupply) : ({} : Issued).Between ids ids := ⟨.nil _, .nil _, .nil _⟩

namespace Store

/-- The names that an edit hands out: those of the primitive it adds and of its ports, or that of the connection it makes. -/
def issued (s : Store) (now : Timestamp) : Edit → Issued
  | .addPrimitive kind position =>
    let p := (s.addPrimitive now kind position).1
    { primitives := [p.id], ports := p.ports.map (·.id) }
  | .connect source target =>
    match (s.connect now source target).1 with
    | .ok k => { connections := [k.id] }
    | .error _ => {}
  | _ => {}

/-- The names that the edits of a run hand out, edit after edit. -/
def trace (s : Store) : List (Timestamp × Edit) → List Issued
  | [] => []
  | e :: edits => s.issued e.1 e.2 :: (s.perform e.1 e.2).trace edits

/-- The names that a run hands out. -/
def issuedAlong (s : Store) (edits : List (Timestamp × Edit)) : Issued where
  primitives := (s.trace edits).flatMap (·.primitives)
  ports := (s.trace edits).flatMap (·.ports)
  connections := (s.trace edits).flatMap (·.connections)

/-- Changing a primitive hands out no name. -/
theorem commit_update_ids (s : Store) (now : Timestamp) (id : PrimitiveId) (change : Primitive → Primitive) :
    (s.commit (·.update now id change)).2.composition.ids = s.composition.ids := by
  rcases s.commit_composition (·.update now id change) with h | h
  · rw [h]
  · rw [h]
    rcases s.composition.update_cases now id change with hc | ⟨-, -, hi⟩
    · rw [hc]
    · exact hi

/-- Removing a primitive gives no name back. -/
theorem removePrimitive_ids (s : Store) (now : Timestamp) (id : PrimitiveId) :
    (s.removePrimitive now id).2.composition.ids = s.composition.ids := by
  refine s.commitRemoval_keeps (motive := fun c => c.ids = s.composition.ids) rfl ?_
  unfold Composition.removePrimitive
  split <;> rfl

theorem removeConnection_ids (s : Store) (now : Timestamp) (id : ConnectionId) :
    (s.removeConnection now id).2.composition.ids = s.composition.ids := by
  refine s.commitRemoval_keeps (motive := fun c => c.ids = s.composition.ids) rfl ?_
  unfold Composition.removeConnection
  split <;> rfl

/-- An edit hands out the numbers by which it moves the counters. -/
theorem issued_between (s : Store) (now : Timestamp) (edit : Edit) :
    (s.issued now edit).Between s.composition.ids (s.perform now edit).composition.ids := by
  have hnone : ∀ {ids : IdSupply}, ids = s.composition.ids → ({} : Issued).Between s.composition.ids ids :=
    fun h => h ▸ Issued.between_none _
  cases edit with
  | addPrimitive kind position =>
    have hf := Catalog.instantiate_fresh kind position s.composition.ids
    have hid : (s.addPrimitive now kind position).1.id = ⟨s.composition.ids.nextPrimitive⟩ := hf.named
    have hports : ((s.addPrimitive now kind position).1.ports.map (·.id)).map (·.val) =
        List.range' s.composition.ids.nextPort kind.portCount := by
      rw [show (s.addPrimitive now kind position).1.ports.map (·.id) = _ from hf.ports, List.map_map]
      exact List.map_id _
    have hids : (s.perform now (.addPrimitive kind position)).composition.ids = _ := hf.supply
    rw [hids]
    refine ⟨?_, ?_, .nil _⟩
    · simp only [issued, hid, List.map_cons, List.map_nil]
      exact .single _
    · simp only [issued, hports]
      exact .range' _ _
  | updatePrimitive id patch => exact hnone (s.commit_update_ids now id _)
  | removePrimitive id => exact hnone (s.removePrimitive_ids now id)
  | movePrimitive id position => exact hnone (s.commit_update_ids now id _)
  | setParameter id parameter value => exact hnone (s.commit_update_ids now id _)
  | setParameterFromJson id parameter raw =>
    refine hnone ?_
    rcases s.setParameterFromJson_cases now id parameter raw with hs | ⟨value, -, hs⟩
    · rw [perform, hs]
    · rw [perform, hs]
      exact s.commit_update_ids now id _
  | connect source target =>
    cases hr : s.composition.resolve source target with
    | error e =>
      simp only [issued, perform, connect, commit, Composition.connect_of_error hr]
      exact Issued.between_none _
    | ok r =>
      simp only [issued, perform, connect, commit, Composition.connect_of_ok hr]
      exact ⟨.nil _, .nil _, .single _⟩
  | removeConnection id => exact hnone (s.removeConnection_ids now id)

/-- A run hands out the numbers by which it moves the counters. -/
theorem trace_between (s : Store) (edits : List (Timestamp × Edit)) :
    (s.issuedAlong edits).Between s.composition.ids (s.run edits).composition.ids := by
  induction edits generalizing s with
  | nil => exact Issued.between_none _
  | cons e edits ih =>
    have hstep := s.issued_between e.1 e.2
    have hrest := ih (s.perform e.1 e.2)
    constructor
    · simp only [issuedAlong, trace, List.flatMap_cons, List.map_append]
      exact hstep.primitives.append hrest.primitives
    · simp only [issuedAlong, trace, List.flatMap_cons, List.map_append]
      exact hstep.ports.append hrest.ports
    · simp only [issuedAlong, trace, List.flatMap_cons, List.map_append]
      exact hstep.connections.append hrest.connections

/-! ## Edits that fail -/

/-- An edit fails: it answers an error, or that there is nothing to remove. -/
def Fails (s : Store) (now : Timestamp) : Edit → Prop
  | .addPrimitive _ _ => False
  | .updatePrimitive id patch => ∃ e, (s.updatePrimitive now id patch).1 = .error e
  | .removePrimitive id => (s.removePrimitive now id).1.isNone
  | .movePrimitive id position => ∃ e, (s.movePrimitive now id position).1 = .error e
  | .setParameter id parameter value => ∃ e, (s.setParameter now id parameter value).1 = .error e
  | .setParameterFromJson id parameter raw => ∃ e, (s.setParameterFromJson now id parameter raw).1 = .error e
  | .connect source target => ∃ e, (s.connect now source target).1 = .error e
  | .removeConnection id => (s.removeConnection now id).1.isNone

/-- A commit that fails leaves the store as it was. -/
theorem commit_of_error {ε α : Type} {s : Store} {edit : Composition → Except ε α × Composition} {e : ε}
    (h : (s.commit edit).1 = .error e) : (s.commit edit).2 = s := by
  unfold commit at h ⊢
  split at h
  · cases h
  · rfl

theorem commitRemoval_of_isNone {α : Type} {s : Store} {removal : Composition → Option α × Composition}
    (h : (s.commitRemoval removal).1.isNone) : (s.commitRemoval removal).2 = s := by
  unfold commitRemoval at h ⊢
  split at h
  · cases h
  · rfl

/-- A value that is refused leaves the store as it was. -/
theorem setParameterFromJson_of_error {s : Store} {now : Timestamp} {id : PrimitiveId} {parameter : String} {raw : Json}
    {e : EditError} (h : (s.setParameterFromJson now id parameter raw).1 = .error e) :
    (s.setParameterFromJson now id parameter raw).2 = s := by
  rw [setParameterFromJson_answer] at h
  simp [setParameterFromJson, h]

/-- An edit that fails leaves the store as it was. -/
theorem perform_of_fails {s : Store} {now : Timestamp} {edit : Edit} (h : s.Fails now edit) :
    s.perform now edit = s := by
  cases edit with
  | addPrimitive kind position => exact h.elim
  | updatePrimitive id patch => exact commit_of_error h.choose_spec
  | removePrimitive id => exact commitRemoval_of_isNone h
  | movePrimitive id position => exact commit_of_error h.choose_spec
  | setParameter id parameter value => exact commit_of_error h.choose_spec
  | setParameterFromJson id parameter raw => exact setParameterFromJson_of_error h.choose_spec
  | connect source target => exact commit_of_error h.choose_spec
  | removeConnection id => exact commitRemoval_of_isNone h

/-- An edit that fails hands out no name. -/
theorem issued_of_fails {s : Store} {now : Timestamp} {edit : Edit} (h : s.Fails now edit) : s.issued now edit = {} := by
  cases edit with
  | addPrimitive kind position => exact h.elim
  | connect source target =>
    obtain ⟨e, he⟩ := h
    simp only [issued, he]
  | _ => rfl

end Store

/-! ## The order of the entries -/

namespace OrderedMap

variable {κ ν : Type} {m : OrderedMap κ ν}

/-- The keys stand in the order of their numbers. -/
def Ascending (number : κ → Nat) (m : OrderedMap κ ν) : Prop := (m.keys.map number).Pairwise (· < ·)

variable {number : κ → Nat}

/-- Leaving out entries keeps the order of the others. -/
theorem Ascending.of_sublist {n : OrderedMap κ ν} (h : m.Ascending number) (hs : n.entries.Sublist m.entries) :
    n.Ascending number :=
  h.sublist ((hs.map Prod.fst).map number)

/-- Where each value stands under its own name, the names of the values stand in the order of their numbers. -/
theorem Ascending.names {name : ν → κ} (h : m.Ascending number) (hn : ∀ e ∈ m.entries, name e.2 = e.1) :
    (m.values.map fun v => number (name v)).Pairwise (· < ·) := by
  have hkeys : m.values.map (fun v => number (name v)) = m.keys.map number := by
    rw [← map_name_values hn, List.map_map, Function.comp_def]
  rwa [hkeys]

/-- A new key above all others goes to the end, which keeps the order. -/
theorem Ascending.insert [DecidableEq κ] (h : m.Ascending number) {k : κ} (v : ν)
    (hk : ∀ k' ∈ m.keys, number k' < number k) : (m.insert k v).Ascending number := by
  have hnew : k ∉ m.keys := fun hm => Nat.lt_irrefl _ (hk k hm)
  rw [Ascending, keys_insert, if_neg hnew, List.map_append, List.pairwise_append]
  refine ⟨h, List.pairwise_singleton _ _, ?_⟩
  intro a ha b hb
  obtain ⟨k', hk', rfl⟩ := List.mem_map.mp ha
  rw [List.map_singleton, List.mem_singleton] at hb
  rw [hb]
  exact hk k' hk'

end OrderedMap

namespace Composition

/-- Both maps stand in the order of the numbers. -/
structure InOrder (c : Composition) : Prop where
  primitives : c.primitives.Ascending (·.val)
  connections : c.connections.Ascending (·.val)

variable {c : Composition}

/-- What edits keep of the order: the keys of the primitives as they were, the connections as they were. -/
theorem InOrder.update (h : c.InOrder) (now : Timestamp) (id : PrimitiveId) (change : Primitive → Primitive) :
    (c.update now id change).2.InOrder := by
  rcases c.update_cases now id change with hc | ⟨he, hk, -⟩
  · rwa [hc]
  · refine ⟨?_, hk ▸ h.connections⟩
    have hkeys : (c.update now id change).2.primitives.keys = c.primitives.keys := by
      rw [OrderedMap.keys, he, List.map_map]
      rfl
    rw [OrderedMap.Ascending, hkeys]
    exact h.primitives

/-- The key of each primitive is below the counter. -/
theorem WellFormed.key_lt (hw : c.WellFormed) : ∀ k ∈ c.primitives.keys, k.val < c.ids.nextPrimitive := by
  intro k hk
  obtain ⟨e, he, rfl⟩ := List.mem_map.mp hk
  rw [← hw.primitivesNamed e he]
  exact hw.primitivesBelow e.2 (OrderedMap.mem_values_of_mem he)

/-- The key of each connection is below the counter. -/
theorem WellFormed.connectionKey_lt (hw : c.WellFormed) : ∀ k ∈ c.connections.keys, k.val < c.ids.nextConnection := by
  intro k hk
  obtain ⟨e, he, rfl⟩ := List.mem_map.mp hk
  rw [← hw.connectionsNamed e he]
  exact hw.connectionsBelow e.2 (OrderedMap.mem_values_of_mem he)

/-- The new primitive has a greater name than all that are there, and comes last. -/
theorem InOrder.addPrimitive (h : c.InOrder) (hw : c.WellFormed) (now : Timestamp) (kind : Kind) (position : Position) :
    (c.addPrimitive now kind position).2.InOrder := by
  have hlt : ∀ k ∈ c.primitives.keys, k.val < (Catalog.instantiate kind position c.ids).1.id.val := by
    rw [(Catalog.instantiate_fresh kind position c.ids).named]
    exact hw.key_lt
  exact ⟨h.primitives.insert _ hlt, h.connections⟩

theorem InOrder.removePrimitive (h : c.InOrder) (now : Timestamp) (id : PrimitiveId) :
    (c.removePrimitive now id).2.InOrder := by
  unfold Composition.removePrimitive
  split
  · exact h
  · exact ⟨h.primitives.of_sublist (OrderedMap.entries_erase_sublist _ _),
      h.connections.of_sublist (OrderedMap.filter_entries_sublist _ _)⟩

/-- The new connection has a greater name than all that are there, and comes last. -/
theorem InOrder.connect (h : c.InOrder) (hw : c.WellFormed) (now : Timestamp) (source target : PortId) :
    (c.connect now source target).2.InOrder := by
  cases hr : c.resolve source target with
  | error e => rwa [connect_of_error hr]
  | ok r =>
    rw [connect_of_ok hr]
    exact ⟨h.primitives, h.connections.insert _ hw.connectionKey_lt⟩

theorem InOrder.removeConnection (h : c.InOrder) (now : Timestamp) (id : ConnectionId) :
    (c.removeConnection now id).2.InOrder := by
  unfold Composition.removeConnection
  split
  · exact h
  · exact ⟨h.primitives, h.connections.of_sublist (OrderedMap.entries_erase_sublist _ _)⟩

end Composition

namespace Store

/-- Every edit keeps the maps of a well-formed composition in the order of the numbers. -/
theorem perform_inOrder (s : Store) (now : Timestamp) (edit : Edit) (hw : s.composition.WellFormed)
    (h : s.composition.InOrder) : (s.perform now edit).composition.InOrder := by
  have hupdate : ∀ id change, (s.commit (·.update now id change)).2.composition.InOrder :=
    fun id change => s.commit_keeps h (h.update now id change)
  cases edit with
  | addPrimitive kind position => exact h.addPrimitive hw now kind position
  | updatePrimitive id patch => exact hupdate id _
  | removePrimitive id => exact s.commitRemoval_keeps h (h.removePrimitive now id)
  | movePrimitive id position => exact hupdate id _
  | setParameter id parameter value => exact hupdate id _
  | setParameterFromJson id parameter raw =>
    rcases s.setParameterFromJson_cases now id parameter raw with hs | ⟨value, -, hs⟩
    · rwa [perform, hs]
    · rw [perform, hs]
      exact hupdate id _
  | connect source target => exact s.commit_keeps h (h.connect hw now source target)
  | removeConnection id => exact s.commitRemoval_keeps h (h.removeConnection now id)

/-- Every run keeps the maps of a well-formed composition in the order of the numbers. -/
theorem run_inOrder (s : Store) (edits : List (Timestamp × Edit)) (hw : s.composition.WellFormed)
    (h : s.composition.InOrder) : (s.run edits).composition.InOrder := by
  have hboth := run_induction (motive := fun s => s.composition.WellFormed ∧ s.composition.InOrder)
    (fun s now edit hs => ⟨s.perform_wellFormed now edit hs.1, s.perform_inOrder now edit hs.1 hs.2⟩) s edits ⟨hw, h⟩
  exact hboth.2

/-- Along a run from a new store the names of the primitives that are added ascend, and so do those of their ports and those
of the connections that are made. They are all the numbers below the counters at the end, so no number is skipped and none is
given twice. An edit that fails hands out no name and leaves the store as it was, counters and all. At the end of the run, and
so at every moment of a longer one, the primitives and the connections stand in the order of their numbers. -/
theorem run_names_ascend (id : Uuid) (now : Timestamp) (name description : String) (edits : List (Timestamp × Edit)) :
    let s := Store.new id now name description
    let c := (s.run edits).composition
    let primitives := (s.issuedAlong edits).primitives.map (·.val)
    let ports := (s.issuedAlong edits).ports.map (·.val)
    let connections := (s.issuedAlong edits).connections.map (·.val)
    (primitives.Pairwise (· < ·) ∧ ports.Pairwise (· < ·) ∧ connections.Pairwise (· < ·)) ∧
      (primitives = List.range c.ids.nextPrimitive ∧ ports = List.range c.ids.nextPort ∧
        connections = List.range c.ids.nextConnection) ∧
      (∀ now edit, (s.run edits).Fails now edit →
        (s.run edits).issued now edit = {} ∧ (s.run edits).perform now edit = s.run edits) ∧
      (c.primitives.values.map (·.id.val)).Pairwise (· < ·) ∧ (c.connections.values.map (·.id.val)).Pairwise (· < ·) := by
  intro s c primitives ports connections
  have hnew : s.composition.WellFormed := Composition.new_wellFormed id now name description
  have hbetween := s.trace_between edits
  have hw : c.WellFormed := s.wellFormed_run edits hnew
  have hordered : c.InOrder := s.run_inOrder edits hnew ⟨List.Pairwise.nil, List.Pairwise.nil⟩
  refine ⟨⟨?_, ?_, ?_⟩, ⟨?_, ?_, ?_⟩, ?_, ?_, ?_⟩
  · exact hbetween.primitives.ascending
  · exact hbetween.ports.ascending
  · exact hbetween.connections.ascending
  · exact hbetween.primitives.eq_range
  · exact hbetween.ports.eq_range
  · exact hbetween.connections.eq_range
  · exact fun now edit h => ⟨issued_of_fails h, perform_of_fails h⟩
  · exact hordered.primitives.names hw.primitivesNamed
  · exact hordered.connections.names hw.connectionsNamed

/-- A primitive that is added after another was removed takes new names, and an attempt that is refused takes none. -/
example :
    let edits : List (Timestamp × Edit) := [(.epoch, .addPrimitive .staking default), (.epoch, .removePrimitive ⟨0⟩),
      (.epoch, .connect ⟨1⟩ ⟨0⟩), (.epoch, .addPrimitive .vault default)]
    let names := (Store.new .zero .epoch "Ids" "").issuedAlong edits
    names.primitives = [⟨0⟩, ⟨1⟩] ∧ names.ports = [⟨0⟩, ⟨1⟩, ⟨2⟩, ⟨3⟩, ⟨4⟩, ⟨5⟩] ∧ names.connections = [] := by
  decide

end Store

end DefiComposer
