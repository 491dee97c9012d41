import DefiComposer.Proofs.Atomicity
import DefiComposer.Proofs.Reconnecting
import DefiComposer.Proofs.Removals

/-!
# Independence: edits that do not see each other

Four of the edits change one primitive and nothing else: what they do is one change under its name
(`Store.perform_of_changed`), and what they answer is decided by what stands under it (`Store.answer_of_changed?`). Changes
under two names come to the same in either order, since a map is changed in its place (`OrderedMap.modify_comm`); and so do
two values for one primitive, of which one has its entry already. Kind and ports are never changed, so nothing that an
attempt to connect reads is; a removal of a connection does not read primitives at all, and a removal of a primitive reads
this one only. So all of these commute with a change under another name: `Store.Commutes.of_bystander` gathers what that
takes.
-/

namespace DefiComposer

/-! ## Changing a value in its place -/

namespace OrderedMap

variable {κ ν : Type} [DecidableEq κ] {m : OrderedMap κ ν} {k k' : κ} {v : ν} {change : ν → ν}

/-- The map with a change made to the value under a key, if there is one. -/
def modify (m : OrderedMap κ ν) (k : κ) (change : ν → ν) : OrderedMap κ ν :=
  ⟨m.entries.map fun e => (e.1, if e.1 = k then change e.2 else e.2), by
    rw [List.map_map]
    exact m.distinct⟩

/-- An entry of a changed map is an entry as it was, with the change made to its value if it stands under the key. -/
theorem mem_entries_modify {e : κ × ν} :
    e ∈ (m.modify k change).entries ↔ ∃ v, (e.1, v) ∈ m.entries ∧ e.2 = if e.1 = k then change v else v := by
  simp only [modify, List.mem_map]
  constructor
  · rintro ⟨d, hd, rfl⟩
    exact ⟨d.2, hd, rfl⟩
  · rintro ⟨v, hv, he⟩
    exact ⟨(e.1, v), hv, Prod.ext rfl he.symm⟩

/-- A look-up sees a change under its own key only. -/
theorem get?_modify (m : OrderedMap κ ν) (k k' : κ) (change : ν → ν) :
    (m.modify k change).get? k' = (m.get? k').map fun v => if k' = k then change v else v := by
  ext w
  rw [get?_eq_some_iff, mem_entries_modify, Option.map_eq_some_iff]
  exact exists_congr fun v => and_congr get?_eq_some_iff.symm eq_comm

theorem get?_modify_of_ne (h : k' ≠ k) : (m.modify k change).get? k' = m.get? k' := by
  simp [get?_modify, h]

/-- Only what the change makes of the value that is there matters. -/
theorem modify_congr {change' : ν → ν} (h : ∀ v, m.get? k = some v → change v = change' v) :
    m.modify k change = m.modify k change' := by
  refine ext_entries (List.map_congr_left fun e he => ?_)
  by_cases hk : e.1 = k
  · have hv : m.get? k = some e.2 := get?_eq_some_iff.mpr (hk ▸ he)
    rw [if_pos hk, if_pos hk, h e.2 hv]
  · rw [if_neg hk, if_neg hk]

/-- A change that does nothing to the value that is there does nothing to the map. -/
theorem modify_eq_self (h : ∀ v, m.get? k = some v → change v = v) : m.modify k change = m := by
  have hid : m.modify k change = m.modify k id := modify_congr h
  rw [hid]
  exact ext_entries (by simp [modify])

/-- Putting what a change makes of the value under a key changes that value. -/
theorem insert_eq_modify (h : m.get? k = some v) (change : ν → ν) : m.insert k (change v) = m.modify k change :=
  ext_entries (entries_insert_of_get? h change)

/-- Two changes under one key are one change. -/
theorem modify_modify (m : OrderedMap κ ν) (k : κ) (change change' : ν → ν) :
    (m.modify k change).modify k change' = m.modify k (change' ∘ change) := by
  refine ext_entries ?_
  simp only [modify, List.map_map]
  refine List.map_congr_left fun e _ => ?_
  by_cases hk : e.1 = k <;> simp [hk]

/-- Changes under two keys may be made in either order. -/
theorem modify_comm (h : k ≠ k') (change change' : ν → ν) :
    (m.modify k change).modify k' change' = (m.modify k' change').modify k change := by
  refine ext_entries ?_
  simp only [modify, List.map_map]
  refine List.map_congr_left fun e _ => ?_
  by_cases hk : e.1 = k
  · simp [hk, h]
  · simp [hk]

/-- Erasing and changing may be done in either order. -/
theorem erase_modify (m : OrderedMap κ ν) (k k' : κ) (change : ν → ν) :
    (m.modify k change).erase k' = (m.erase k').modify k change := by
  refine ext_entries ?_
  simp only [entries_erase, modify, List.filter_map]
  rfl

/-- A change under one key does not matter to a value that is put under another one. -/
theorem modify_insert (h : k ≠ k') (change : ν → ν) (v : ν) :
    (m.modify k change).insert k' v = (m.insert k' v).modify k change := by
  have hput : ∀ l : List (κ × ν), put k' v (l.map fun e => (e.1, if e.1 = k then change e.2 else e.2)) =
      (put k' v l).map fun e => (e.1, if e.1 = k then change e.2 else e.2) := by
    intro l
    induction l with
    | nil => simp [put, h.symm]
    | cons e l ih =>
      rw [List.map_cons, put, put]
      split
      · simp [h.symm]
      · rw [List.map_cons, ih]
  exact ext_entries (hput m.entries)

/-- Values under two keys may be put in either order, if one of the keys is there already. -/
theorem insert_comm (h : k ≠ k') (hk : k ∈ m.keys ∨ k' ∈ m.keys) (v v' : ν) :
    (m.insert k v).insert k' v' = (m.insert k' v').insert k v := by
  have hplace : ∀ (m : OrderedMap κ ν) (k : κ) (v : ν), k ∈ m.keys → m.insert k v = m.modify k fun _ => v :=
    fun m _ _ hk => ext_entries (put_of_mem m.distinct hk)
  have hfirst : ∀ {k k' : κ} (v v' : ν), k ≠ k' → k ∈ m.keys →
      (m.insert k v).insert k' v' = (m.insert k' v').insert k v := by
    intro k k' v v' h hk
    have hlater : k ∈ (m.insert k' v').keys := by
      rw [keys_insert]
      split
      · exact hk
      · exact List.mem_append_left _ hk
    rw [hplace m k v hk, modify_insert h, hplace _ k v hlater]
  rcases hk with hk | hk
  · exact hfirst v v' h hk
  · exact (hfirst v' v h.symm hk).symm

end OrderedMap

/-! ## Edits of one primitive -/

/-- The primitive with a value stored for a parameter, if there is one to store. -/
def Primitive.store (p : Primitive) (parameter : String) (value : Option ParameterValue) : Primitive :=
  { p with parameters := value.elim p.parameters (p.parameters.insert parameter) }

/-- Two values may be stored in either order, if one of them has an entry already. -/
theorem Primitive.store_comm {p : Primitive} {parameter parameter' : String} (h : parameter ≠ parameter')
    (hp : parameter ∈ p.parameters.keys ∨ parameter' ∈ p.parameters.keys) (value value' : Option ParameterValue) :
    (p.store parameter value).store parameter' value' = (p.store parameter' value').store parameter value := by
  cases value with
  | none => cases value' <;> rfl
  | some v =>
    cases value' with
    | none => rfl
    | some v' => exact congrArg (fun parameters => { p with parameters }) (OrderedMap.insert_comm h hp v v')

namespace Edit

/-- The primitive that an edit changes, if it changes one. -/
def changed? : Edit → Option PrimitiveId
  | updatePrimitive id _ | movePrimitive id _ | setParameter id _ _ | setParameterFromJson id _ _ => some id
  | addPrimitive _ _ | removePrimitive _ | connect _ _ | removeConnection _ => none

/-- The parameter that an edit writes a value of, and its primitive. -/
def written? : Edit → Option (PrimitiveId × String)
  | setParameter id parameter _ | setParameterFromJson id parameter _ => some (id, parameter)
  | addPrimitive _ _ | updatePrimitive _ _ | removePrimitive _ | movePrimitive _ _ | connect _ _ | removeConnection _ => none

/-- The value that an edit writes in a composition, if it has one. -/
def value? (c : Composition) : Edit → Option ParameterValue
  | setParameter _ _ value => some value
  | setParameterFromJson id parameter raw => (Store.readParameter c id parameter raw).toOption
  | addPrimitive _ _ | updatePrimitive _ _ | removePrimitive _ | movePrimitive _ _ | connect _ _ | removeConnection _ => none

/-- What an edit makes of the primitive that it changes in a composition. -/
def change (c : Composition) (edit : Edit) (p : Primitive) : Primitive :=
  match edit with
  | updatePrimitive _ patch => p.apply patch
  | movePrimitive _ position => { p with position }
  | setParameter _ parameter _ | setParameterFromJson _ parameter _ => p.store parameter (edit.value? c)
  | addPrimitive _ _ | removePrimitive _ | connect _ _ | removeConnection _ => p

variable {c c' : Composition} {edit : Edit} {id : PrimitiveId} {parameter : String}

/-- No edit changes what a primitive is: its name, kind and ports. -/
theorem change_frame (c : Composition) (edit : Edit) (p : Primitive) : (edit.change c p).frame = p.frame := by
  cases edit <;> rfl

/-- An edit that writes a parameter changes the primitive that has it. -/
theorem changed?_of_written? (h : edit.written? = some (id, parameter)) : edit.changed? = some id := by
  cases edit <;> cases h <;> rfl

/-- An edit that writes a parameter stores the value that it brings. -/
theorem change_of_written? (h : edit.written? = some (id, parameter)) :
    edit.change c = fun p => p.store parameter (edit.value? c) := by
  cases edit <;> cases h <;> rfl

end Edit

namespace Store

variable {s s' : Store} {c c' : Composition} {edit : Edit} {id : PrimitiveId} {parameter : String}

/-- Raw input is read as the kind of the primitive asks. -/
theorem readParameter_congr (h : (c'.primitive? id).map (·.kind) = (c.primitive? id).map (·.kind)) (parameter : String)
    (raw : Json) : readParameter c' id parameter raw = readParameter c id parameter raw := by
  unfold readParameter
  cases hp : c.primitive? id with
  | none =>
    rw [hp, Option.map_none, Option.map_eq_none_iff] at h
    rw [h]
  | some p =>
    rw [hp, Option.map_some, Option.map_eq_some_iff] at h
    obtain ⟨q, hq, hkind⟩ := h
    rw [hq]
    simp only [hkind]

/-- What an edit makes of its primitive is decided by the kind of this one. -/
theorem change_congr (he : edit.changed? = some id)
    (h : (c'.primitive? id).map (·.kind) = (c.primitive? id).map (·.kind)) : edit.change c' = edit.change c := by
  cases edit with
  | setParameterFromJson id parameter raw =>
    cases he
    funext p
    simp only [Edit.change, Edit.value?, readParameter_congr h]
  | updatePrimitive _ _ | movePrimitive _ _ | setParameter _ _ _ => rfl
  | _ => cases he

/-- Committing a change to a primitive makes it under the name, and does nothing else that can be read. -/
theorem commit_update_modify (s : Store) (now : Timestamp) (id : PrimitiveId) (change : Primitive → Primitive) :
    let next := (s.commit (·.update now id change)).2.composition
    next.primitives = s.composition.primitives.modify id change ∧ next.connections = s.composition.connections ∧
      next.ids = s.composition.ids := by
  cases hp : s.composition.primitive? id with
  | none =>
    have hself : s.composition.primitives.modify id change = s.composition.primitives :=
      OrderedMap.modify_eq_self fun v hv => by
        rw [Composition.primitive?, hv] at hp
        cases hp
    simp only [commit, Composition.update, hp, hself, and_self]
  | some p => simp only [commit, Composition.update, hp, OrderedMap.insert_eq_modify hp change, and_self]

/-- An edit of one primitive makes its change under the name of this one, and leaves all else. -/
theorem perform_of_changed (he : edit.changed? = some id) (s : Store) (now : Timestamp) :
    let next := (s.perform now edit).composition
    next.primitives = s.composition.primitives.modify id (edit.change s.composition) ∧
      next.connections = s.composition.connections ∧ next.ids = s.composition.ids := by
  cases edit with
  | updatePrimitive id patch =>
    cases he
    exact s.commit_update_modify now id _
  | movePrimitive id position =>
    cases he
    exact s.commit_update_modify now id _
  | setParameter id parameter value =>
    cases he
    exact s.commit_update_modify now id _
  | setParameterFromJson id parameter raw =>
    cases he
    cases hr : readParameter s.composition id parameter raw with
    | error e =>
      have hself : s.composition.primitives.modify id
          ((Edit.setParameterFromJson id parameter raw).change s.composition) = s.composition.primitives := by
        refine OrderedMap.modify_eq_self fun p _ => ?_
        simp only [Edit.change, Edit.value?, hr]
        rfl
      simp only [perform, setParameterFromJson, hr, hself, and_self]
    | ok value =>
      have hnext : (s.setParameterFromJson now id parameter raw).2 = (s.setParameter now id parameter value).2 := by
        simp only [setParameterFromJson, hr]
        split <;> rename_i hs <;> rw [hs]
      have hchange : (Edit.setParameterFromJson id parameter raw).change s.composition =
          fun p => { p with parameters := p.parameters.insert parameter value } := by
        funext p
        simp only [Edit.change, Edit.value?, hr]
        rfl
      rw [hchange, perform, hnext]
      exact s.commit_update_modify now id _
  | _ => cases he

/-- Under other names all stands as it was. -/
theorem primitive?_perform_of_ne (he : edit.changed? = some id) (s : Store) (now : Timestamp) {id' : PrimitiveId}
    (h : id' ≠ id) : (s.perform now edit).composition.primitive? id' = s.composition.primitive? id' := by
  rw [Composition.primitive?, (perform_of_changed he s now).1, OrderedMap.get?_modify_of_ne h]
  rfl

/-- An edit of one primitive changes no kind. -/
theorem kind_perform (he : edit.changed? = some id) (s : Store) (now : Timestamp) (id' : PrimitiveId) :
    ((s.perform now edit).composition.primitive? id').map (·.kind) = (s.composition.primitive? id').map (·.kind) := by
  have hkind : ∀ p, (edit.change s.composition p).kind = p.kind :=
    fun p => (Primitive.frame_eq_iff.mp (edit.change_frame s.composition p)).2.1
  rw [Composition.primitive?, (perform_of_changed he s now).1, OrderedMap.get?_modify, Option.map_map]
  refine Option.map_congr fun p _ => ?_
  simp only [Function.comp_apply]
  split
  · exact hkind p
  · rfl

end Store

/-! ## Answers -/

/-- What an edit answers. A move and a value that is stored answer no more than that they were done. -/
inductive Edit.Answer where
  | added (p : Primitive)
  | patched (result : Except LookupError Primitive)
  | removed (result : Option Removal)
  | done (result : Except LookupError Unit)
  | read (result : Except EditError ParameterValue)
  | connected (result : Except ConnectError Connection)
  | disconnected (result : Option Connection)

namespace Store

/-- What a store answers to an edit at a moment. -/
def answer (s : Store) (now : Timestamp) : Edit → Edit.Answer
  | .addPrimitive kind position => .added (s.addPrimitive now kind position).1
  | .updatePrimitive id patch => .patched (s.updatePrimitive now id patch).1
  | .removePrimitive id => .removed (s.removePrimitive now id).1
  | .movePrimitive id position => .done ((s.movePrimitive now id position).1.map fun _ => ())
  | .setParameter id parameter value => .done ((s.setParameter now id parameter value).1.map fun _ => ())
  | .setParameterFromJson id parameter raw => .read (s.setParameterFromJson now id parameter raw).1
  | .connect source target => .connected (s.connect now source target).1
  | .removeConnection id => .disconnected (s.removeConnection now id).1

variable {s s' : Store} {edit : Edit} {id : PrimitiveId} {parameter : String}

/-- A committed update answers the changed primitive, or that there is none. -/
theorem commit_update_answer (s : Store) (now : Timestamp) (id : PrimitiveId) (change : Primitive → Primitive) :
    (s.commit (·.update now id change)).1 =
      (s.composition.primitive? id).elim (.error (.primitiveNotFound id)) fun p => .ok (change p) := by
  rw [commit_answer, Composition.update]
  cases s.composition.primitive? id <;> rfl

/-- Whether a committed update is done is decided by whether the primitive is there. -/
theorem commit_update_done (s : Store) (now : Timestamp) (id : PrimitiveId) (change : Primitive → Primitive) :
    ((s.commit (·.update now id change)).1.map fun _ => ()) =
      ((s.composition.primitive? id).map (·.kind)).elim (.error (.primitiveNotFound id)) fun _ => .ok () := by
  rw [commit_update_answer]
  cases s.composition.primitive? id <;> rfl

/-- A written value is answered as the kind of the primitive asks. -/
theorem answer_of_written? (he : edit.written? = some (id, parameter))
    (h : (s'.composition.primitive? id).map (·.kind) = (s.composition.primitive? id).map (·.kind)) (now later : Timestamp) :
    s'.answer later edit = s.answer now edit := by
  cases edit with
  | setParameter id parameter value =>
    cases he
    refine congrArg Edit.Answer.done ?_
    exact ((s'.commit_update_done later id _).trans (by rw [h])).trans (s.commit_update_done now id _).symm
  | setParameterFromJson id parameter raw =>
    cases he
    simp only [answer, setParameterFromJson_answer, readParameter_congr h]
  | _ => cases he

/-- An edit of one primitive is answered by what stands under the name. -/
theorem answer_of_changed? (he : edit.changed? = some id)
    (h : s'.composition.primitive? id = s.composition.primitive? id) (now later : Timestamp) :
    s'.answer later edit = s.answer now edit := by
  have hkind : (s'.composition.primitive? id).map (·.kind) = (s.composition.primitive? id).map (·.kind) := by rw [h]
  cases edit with
  | updatePrimitive id patch =>
    cases he
    refine congrArg Edit.Answer.patched ?_
    exact ((s'.commit_update_answer later id _).trans (by rw [h])).trans (s.commit_update_answer now id _).symm
  | movePrimitive id position =>
    cases he
    refine congrArg Edit.Answer.done ?_
    exact ((s'.commit_update_done later id _).trans (by rw [hkind])).trans (s.commit_update_done now id _).symm
  | setParameter id parameter value =>
    cases he
    exact answer_of_written? rfl hkind now later
  | setParameterFromJson id parameter raw =>
    cases he
    exact answer_of_written? rfl hkind now later
  | _ => cases he

end Store

/-! ## What an attempt to connect reads -/

namespace Composition

variable {c c' : Composition} {source target : PortId}

/-- What is found by the frames of the primitives is the same where these are. -/
theorem SameFrames.findSome?_eq {α : Type} (h : SameFrames c c')
    (find : PrimitiveId × Kind × List Port × List Port → Option α) :
    c'.primitives.values.findSome? (fun p => find p.frame) = c.primitives.values.findSome? fun p => find p.frame := by
  have hfind : ∀ d : Composition, d.primitives.values.findSome? (fun p => find p.frame) =
      (d.primitives.entries.map fun e => (e.1, e.2.frame)).findSome? fun e => find e.2 := by
    intro d
    rw [OrderedMap.values, List.findSome?_map, List.findSome?_map]
    rfl
  rw [hfind, hfind, h]

/-- The decision on an attempt to connect reads frames and connections. -/
theorem resolve_congr (h : SameFrames c c') (hk : c'.connections = c.connections) (source target : PortId) :
    c'.resolve source target = c.resolve source target := by
  have houtput : c'.output? source = c.output? source :=
    h.findSome?_eq fun frame => frame.2.2.2.find? fun port : Port => port.id = source
  have hinput : c'.input? target = c.input? target :=
    h.findSome?_eq fun frame => frame.2.2.1.find? fun port : Port => port.id = target
  simp only [resolve, houtput, hinput, between?, hk]

/-- So it answers the same and adds the same, where the counters are the same. -/
theorem connect_congr (h : SameFrames c c') (hk : c'.connections = c.connections) (hi : c'.ids = c.ids)
    (now later : Timestamp) (source target : PortId) :
    (c'.connect later source target).1 = (c.connect now source target).1 ∧
      (c'.connect later source target).2.connections = (c.connect now source target).2.connections ∧
        (c'.connect later source target).2.ids = (c.connect now source target).2.ids := by
  cases hr : c.resolve source target with
  | error e =>
    rw [connect_of_error hr, connect_of_error ((resolve_congr h hk source target).trans hr)]
    exact ⟨rfl, hk, hi⟩
  | ok r =>
    rw [connect_of_ok hr, connect_of_ok ((resolve_congr h hk source target).trans hr)]
    simp only [hk, hi, and_self]

/-! ## What removals answer and leave -/

/-- A removal answers the primitive with the connections at it, in their order. -/
theorem removePrimitive_answer (c : Composition) (now : Timestamp) (id : PrimitiveId) :
    (c.removePrimitive now id).1 = (c.primitive? id).map fun p => ⟨p, c.connections.values.filter p.touches⟩ := by
  cases hp : c.primitive? id <;> simp only [removePrimitive, hp, Option.map]

/-- What a removal of a connection answers, and what it leaves, is read off the connections. -/
theorem removeConnection_reads (c : Composition) (now : Timestamp) (id : ConnectionId) :
    (c.removeConnection now id).1 = c.connections.get? id ∧
      (c.removeConnection now id).2.connections = c.connections.erase id := by
  cases hc : c.connections.get? id with
  | none =>
    rw [OrderedMap.erase_of_not_mem (OrderedMap.get?_eq_none_iff.mp hc)]
    simp only [removeConnection, connection?, hc, and_self]
  | some k => simp only [removeConnection, connection?, hc, and_self]

end Composition

namespace Store

variable {s : Store} {edit other : Edit} {id id' : PrimitiveId}

/-- An edit of one primitive keeps all frames. -/
theorem sameFrames_of_changed? (he : edit.changed? = some id) (s : Store) (now : Timestamp) :
    Composition.SameFrames s.composition (s.perform now edit).composition := by
  rw [Composition.SameFrames, (perform_of_changed he s now).1, OrderedMap.modify, List.map_map]
  refine List.map_congr_left fun e _ => ?_
  simp only [Function.comp_apply]
  split
  · rw [edit.change_frame]
  · rfl

/-- What connecting leaves in a store is what it leaves in the composition. -/
theorem connect_composition (s : Store) (now : Timestamp) (source target : PortId) :
    (s.connect now source target).2.composition = (s.composition.connect now source target).2 := by
  cases hr : s.composition.resolve source target with
  | error e => simp only [connect, commit, Composition.connect_of_error hr]
  | ok r => simp only [connect, commit, Composition.connect_of_ok hr]

theorem removePrimitive_composition (s : Store) (now : Timestamp) (id : PrimitiveId) :
    (s.removePrimitive now id).2.composition = (s.composition.removePrimitive now id).2 :=
  congrArg (·.2.composition) (s.composition.removePrimitive_of_store s.options now id)

/-! ## Edits in either order -/

/-- Two edits may be made in either order, at whatever moments: each answers as if it was made alone, and the same primitives,
connections and counters are left. -/
structure Commutes (s : Store) (edit other : Edit) : Prop where
  answers : ∀ now later moment, (s.perform now other).answer later edit = s.answer moment edit
  othersAnswers : ∀ now later moment, (s.perform now edit).answer later other = s.answer moment other
  primitives : ∀ now later now' later', ((s.perform now edit).perform later other).composition.primitives =
    ((s.perform now' other).perform later' edit).composition.primitives
  connections : ∀ now later now' later', ((s.perform now edit).perform later other).composition.connections =
    ((s.perform now' other).perform later' edit).composition.connections
  ids : ∀ now later now' later', ((s.perform now edit).perform later other).composition.ids =
    ((s.perform now' other).perform later' edit).composition.ids

namespace Commutes

/-- An edit of one primitive commutes with another edit that leaves this primitive as it is, answers and does the same to
connections and counters without it, and does the same to the other primitives. -/
theorem of_bystander (he : edit.changed? = some id)
    (hkept : ∀ now, (s.perform now other).composition.primitive? id = s.composition.primitive? id)
    (hanswer : ∀ now later moment, (s.perform now edit).answer later other = s.answer moment other)
    (hprimitives : ∀ now later now', ((s.perform now edit).perform later other).composition.primitives =
      (s.perform now' other).composition.primitives.modify id (edit.change s.composition))
    (hrest : ∀ now later now',
      ((s.perform now edit).perform later other).composition.connections = (s.perform now' other).composition.connections ∧
        ((s.perform now edit).perform later other).composition.ids = (s.perform now' other).composition.ids) :
    s.Commutes edit other where
  answers := fun now later moment => answer_of_changed? he (hkept now) moment later
  othersAnswers := hanswer
  primitives := by
    intro now later now' later'
    have hchange : edit.change (s.perform now' other).composition = edit.change s.composition :=
      change_congr he (by rw [hkept])
    rw [(perform_of_changed he _ later').1, hprimitives now later now', hchange]
  connections := by
    intro now later now' later'
    rw [(perform_of_changed he _ later').2.1, (hrest now later now').1]
  ids := by
    intro now later now' later'
    rw [(perform_of_changed he _ later').2.2, (hrest now later now').2]

/-- Edits of two primitives commute. -/
theorem of_apart (he : edit.changed? = some id) (ho : other.changed? = some id') (h : id ≠ id') : s.Commutes edit other := by
  have hkept : ∀ now, (s.perform now other).composition.primitive? id = s.composition.primitive? id :=
    fun now => primitive?_perform_of_ne ho s now h
  have hother : ∀ now, (s.perform now edit).composition.primitive? id' = s.composition.primitive? id' :=
    fun now => primitive?_perform_of_ne he s now h.symm
  refine of_bystander he hkept (fun now later moment => answer_of_changed? ho (hother now) moment later)
    (fun now later now' => ?_) fun now later now' => ?_
  · have hchange : other.change (s.perform now edit).composition = other.change s.composition :=
      change_congr ho (by rw [hother])
    rw [(perform_of_changed ho _ later).1, (perform_of_changed he s now).1, (perform_of_changed ho s now').1, hchange,
      OrderedMap.modify_comm h]
  · obtain ⟨-, hk, hi⟩ := perform_of_changed he s now
    obtain ⟨-, hk', hi'⟩ := perform_of_changed ho s now'
    obtain ⟨-, hlast, hlast'⟩ := perform_of_changed ho (s.perform now edit) later
    exact ⟨by rw [hlast, hk, hk'], by rw [hlast', hi, hi']⟩

/-- Two values for one primitive commute, if one of them has an entry already. -/
theorem of_written {parameter parameter' : String} (he : edit.written? = some (id, parameter))
    (ho : other.written? = some (id, parameter')) (hne : parameter ≠ parameter')
    (hp : ∀ p, s.composition.primitive? id = some p → parameter ∈ p.parameters.keys ∨ parameter' ∈ p.parameters.keys) :
    s.Commutes edit other := by
  have hedit := Edit.changed?_of_written? he
  have hother := Edit.changed?_of_written? ho
  have hkinds : ∀ now, ((s.perform now edit).composition.primitive? id).map (·.kind) =
      (s.composition.primitive? id).map (·.kind) := fun now => kind_perform hedit s now id
  have hkinds' : ∀ now, ((s.perform now other).composition.primitive? id).map (·.kind) =
      (s.composition.primitive? id).map (·.kind) := fun now => kind_perform hother s now id
  refine ⟨fun now later moment => answer_of_written? he (hkinds' now) moment later,
    fun now later moment => answer_of_written? ho (hkinds now) moment later, fun now later now' later' => ?_,
    fun now later now' later' => ?_, fun now later now' later' => ?_⟩
  · -- both values are those that the kind asks for, so the two changes of the primitive are the same in either order
    rw [(perform_of_changed hother _ later).1, (perform_of_changed hedit s now).1, (perform_of_changed hedit _ later').1,
      (perform_of_changed hother s now').1, change_congr hother (hkinds now), change_congr hedit (hkinds' now'),
      OrderedMap.modify_modify, OrderedMap.modify_modify]
    refine OrderedMap.modify_congr fun p hfound => ?_
    simp only [Function.comp_apply, Edit.change_of_written? he, Edit.change_of_written? ho]
    exact Primitive.store_comm hne (hp p hfound) _ _
  · rw [(perform_of_changed hother _ later).2.1, (perform_of_changed hedit s now).2.1, (perform_of_changed hedit _ later').2.1,
      (perform_of_changed hother s now').2.1]
  · rw [(perform_of_changed hother _ later).2.2, (perform_of_changed hedit s now).2.2, (perform_of_changed hedit _ later').2.2,
      (perform_of_changed hother s now').2.2]

/-- An edit of a primitive commutes with an attempt to connect any two ports. -/
theorem of_connect (he : edit.changed? = some id) (source target : PortId) : s.Commutes edit (.connect source target) := by
  have hconnect := fun now later moment =>
    Composition.connect_congr (sameFrames_of_changed? he s now) (perform_of_changed he s now).2.1
      (perform_of_changed he s now).2.2 moment later source target
  have hprimitives : ∀ (s : Store) now, (s.perform now (.connect source target)).composition.primitives =
      s.composition.primitives := fun s now => s.connect_primitives now source target
  have hleft : ∀ (s : Store) now, (s.perform now (.connect source target)).composition =
      (s.composition.connect now source target).2 := fun s now => s.connect_composition now source target
  refine of_bystander he (fun now => ?_) (fun now later moment => ?_) (fun now later now' => ?_) fun now later now' => ?_
  · exact congrArg (·.get? id) (hprimitives s now)
  · simp only [answer, connect, commit_answer, (hconnect now later moment).1]
  · rw [hprimitives, hprimitives, (perform_of_changed he s now).1]
  · rw [hleft, hleft]
    exact (hconnect now later now').2

/-- An edit of a primitive commutes with the removal of a connection. -/
theorem of_removeConnection (he : edit.changed? = some id) (k : ConnectionId) : s.Commutes edit (.removeConnection k) := by
  have hprimitives : ∀ (s : Store) now, (s.perform now (.removeConnection k)).composition.primitives =
      s.composition.primitives := by
    intro s now
    rw [perform, removeConnection_composition, Composition.removeConnection_primitives]
  have hconnections : ∀ (s : Store) now, (s.perform now (.removeConnection k)).composition.connections =
      s.composition.connections.erase k := by
    intro s now
    rw [perform, removeConnection_composition, (Composition.removeConnection_reads _ _ _).2]
  refine of_bystander he (fun now => ?_) (fun now later moment => ?_) (fun now later now' => ?_)
    fun now later now' => ⟨?_, ?_⟩
  · exact congrArg (·.get? id) (hprimitives s now)
  · simp only [answer, removeConnection, commitRemoval_answer, (Composition.removeConnection_reads _ _ _).1,
      (perform_of_changed he s now).2.1]
  · rw [hprimitives, hprimitives, (perform_of_changed he s now).1]
  · rw [hconnections, hconnections, (perform_of_changed he s now).2.1]
  · calc
      _ = (s.perform now edit).composition.ids := removeConnection_ids _ later k
      _ = s.composition.ids := (perform_of_changed he s now).2.2
      _ = _ := (s.removeConnection_ids now' k).symm

/-- An edit of a primitive commutes with the removal of another one. -/
theorem of_removePrimitive (he : edit.changed? = some id) (h : id ≠ id') : s.Commutes edit (.removePrimitive id') := by
  have hprimitives : ∀ (s : Store) now, (s.perform now (.removePrimitive id')).composition.primitives =
      s.composition.primitives.erase id' := by
    intro s now
    rw [perform, removePrimitive_composition, Composition.removePrimitive_primitives]
  have hconnections : ∀ (s : Store) now, (s.perform now (.removePrimitive id')).composition.connections =
      s.composition.connections.filter fun k => !s.composition.isIncident id' k := by
    intro s now
    rw [perform, removePrimitive_composition, Composition.removePrimitive_connections]
  have hother : ∀ now, (s.perform now edit).composition.primitive? id' = s.composition.primitive? id' :=
    fun now => primitive?_perform_of_ne he s now h.symm
  refine of_bystander he (fun now => ?_) (fun now later moment => ?_) (fun now later now' => ?_)
    fun now later now' => ⟨?_, ?_⟩
  · exact (congrArg (·.get? id) (hprimitives s now)).trans (OrderedMap.get?_erase_of_ne h)
  · simp only [answer, removePrimitive, commitRemoval_answer, Composition.removePrimitive_answer, hother,
      (perform_of_changed he s now).2.1]
  · rw [hprimitives, hprimitives, (perform_of_changed he s now).1, OrderedMap.erase_modify]
  · -- the primitive that goes has the ports it had, so the same connections go with it
    have hincident : (s.perform now edit).composition.isIncident id' = s.composition.isIncident id' := by
      funext k
      rw [Composition.isIncident, hother]
      rfl
    rw [hconnections, hconnections, hincident, (perform_of_changed he s now).2.1]
  · calc
      _ = (s.perform now edit).composition.ids := removePrimitive_ids _ later id'
      _ = s.composition.ids := (perform_of_changed he s now).2.2
      _ = _ := (s.removePrimitive_ids now' id').symm

end Commutes

/-- Values for two parameters of one primitive commute exactly if one of the two has an entry already: new entries stand in
the order in which they were made. -/
theorem setParameter_commutes_iff {p : Primitive} (hp : s.composition.primitive? id = some p) {parameter parameter' : String}
    (hne : parameter ≠ parameter') (value value' : ParameterValue) :
    s.Commutes (.setParameter id parameter value) (.setParameter id parameter' value') ↔
      parameter ∈ p.parameters.keys ∨ parameter' ∈ p.parameters.keys := by
  constructor
  · intro h
    by_contra hnew
    rw [not_or] at hnew
    have hboth : ∀ a b v w, (((s.perform .epoch (.setParameter id a v)).perform .epoch
        (.setParameter id b w)).composition.primitive? id).map (·.parameters.keys) =
          some ((p.parameters.insert a v).insert b w).keys := by
      intro a b v w
      rw [Composition.primitive?, (perform_of_changed rfl _ _).1, OrderedMap.get?_modify, (perform_of_changed rfl _ _).1,
        OrderedMap.get?_modify]
      rw [Composition.primitive?] at hp
      rw [hp]
      simp [Edit.change, Edit.value?, Primitive.store]
    have hkeys := congrArg (fun m => (m.get? id).map (·.parameters.keys)) (h.primitives .epoch .epoch .epoch .epoch)
    have hlists := (hboth parameter parameter' value value').symm.trans (hkeys.trans (hboth parameter' parameter value' value))
    simp [OrderedMap.keys_insert, hnew.1, hnew.2, hne, hne.symm] at hlists
  · intro hold
    refine Commutes.of_written rfl rfl hne fun q hq => ?_
    obtain rfl := Option.some.inj (hp.symm.trans hq)
    exact hold

/-- Edits that do not see each other may be made in either order, in whatever store: both answer the same, and the same
primitives, connections and counters are left. These are edits of two primitives; values for two parameters of one primitive
of which one has an entry already; and an edit of a primitive beside an attempt to connect, the removal of a connection, or
the removal of another primitive. -/
theorem independent_edits_commute (s : Store) :
    (∀ edit other id id', edit.changed? = some id → other.changed? = some id' → id ≠ id' → s.Commutes edit other) ∧
      (∀ edit other id parameter parameter' p, edit.written? = some (id, parameter) →
        other.written? = some (id, parameter') → parameter ≠ parameter' → s.composition.primitive? id = some p →
          parameter ∈ p.parameters.keys ∨ parameter' ∈ p.parameters.keys → s.Commutes edit other) ∧
      ∀ edit id, edit.changed? = some id →
        (∀ source target, s.Commutes edit (.connect source target)) ∧ (∀ k, s.Commutes edit (.removeConnection k)) ∧
          ∀ id', id ≠ id' → s.Commutes edit (.removePrimitive id') := by
  refine ⟨fun edit other id id' he ho h => .of_apart he ho h, ?_, fun edit id he => ⟨?_, ?_, ?_⟩⟩
  · intro edit other id parameter parameter' p he ho hne hp hold
    refine .of_written he ho hne fun q hq => ?_
    obtain rfl := Option.some.inj (hp.symm.trans hq)
    exact hold
  · exact fun source target => .of_connect he source target
  · exact fun k => .of_removeConnection he k
  · exact fun id' h => .of_removePrimitive he h

/-- A pool that lends to a vault. -/
def fundedVault : Store :=
  (Store.new .zero .epoch "Funds" "").run
    [ (.epoch, .addPrimitive .lendingPool default), (.epoch, .addPrimitive .vault default),
      (.epoch, .connect ⟨2⟩ ⟨4⟩) ]

/-- A rate of the pool beside a label of the vault, beside an asset of the pool that is refused, beside receipts for the vault,
and beside removals of the connection and of the vault. -/
theorem fundedVault_edits_commute :
    let rate := Edit.setParameterFromJson ⟨0⟩ "interestRate" (.string "7")
    let label := Edit.updatePrimitive ⟨1⟩ { label := some "Nest egg" }
    let asset := Edit.setParameterFromJson ⟨0⟩ "assetType" .null
    (rate.changed? = some ⟨0⟩ ∧ label.changed? = some ⟨1⟩ ∧ fundedVault.Commutes rate label) ∧
      (∃ pool, fundedVault.composition.primitive? ⟨0⟩ = some pool ∧ "interestRate" ∈ pool.parameters.keys ∧
        (fundedVault.setParameterFromJson .epoch ⟨0⟩ "assetType" .null).1 = .error (.violation (.required "assetType")) ∧
          fundedVault.Commutes rate asset) ∧
      fundedVault.Commutes rate (.connect ⟨3⟩ ⟨4⟩) ∧ fundedVault.Commutes rate (.removeConnection ⟨0⟩) ∧
        fundedVault.Commutes rate (.removePrimitive ⟨1⟩) := by
  intro rate label asset
  obtain ⟨hapart, hwritten, hbeside⟩ := independent_edits_commute fundedVault
  have hne : (⟨0⟩ : PrimitiveId) ≠ ⟨1⟩ := by decide
  obtain ⟨hconnect, hremove, hother⟩ := hbeside rate ⟨0⟩ rfl
  have hkey : "interestRate" ∈ ((Catalog.instantiate .lendingPool default {}).1).parameters.keys := by decide
  refine ⟨⟨rfl, rfl, hapart rate label ⟨0⟩ ⟨1⟩ rfl rfl hne⟩, ⟨_, rfl, hkey, by decide, ?_⟩, hconnect _ _, hremove _,
    hother _ hne⟩
  exact hwritten rate asset ⟨0⟩ "interestRate" "assetType" _ rfl rfl (by decide) rfl (Or.inl hkey)

end Store

end DefiComposer
