import DefiComposer.Store
import DefiComposer.Proofs.Operations
import DefiComposer.Proofs.Parameters

/-!
# Runs: what a store holds after any edits

An `Edit` is one call of a store with its arguments; `Store.perform` is the store it leaves, whether it succeeds or not, and
`Store.run` performs edits one after another. A composition is `Reachable` when a new store holds it after some run. What
every edit keeps, every run keeps (`Store.run_induction`). `Store.Reads` lists what raw input for a parameter can come to, stage
by stage, and is what such an edit answers (`Store.readParameter_eq_iff`, `Store.setParameterFromJson_answer`).

`Edit.Makes` lists what an edit can make of the primitives: a fresh one, or one that was there with a change. No edit does
anything else to them (`Store.mem_values_perform`), so what holds of fresh primitives and is kept by these changes holds of
all primitives along a run. A connection comes from one edit only, an attempt that answers it
(`Store.mem_connections_perform`).
-/

namespace DefiComposer

/-- An edit of a store with its arguments. -/
inductive Edit where
  | addPrimitive (kind : Kind) (position : Position)
  | updatePrimitive (id : PrimitiveId) (patch : PrimitivePatch)
  | removePrimitive (id : PrimitiveId)
  | movePrimitive (id : PrimitiveId) (position : Position)
  | setParameter (id : PrimitiveId) (parameter : String) (value : ParameterValue)
  | setParameterFromJson (id : PrimitiveId) (parameter : String) (raw : Json)
  | connect (source target : PortId)
  | removeConnection (id : ConnectionId)

namespace Store

/-- The store that an edit at a moment leaves. -/
def perform (s : Store) (now : Timestamp) : Edit → Store
  | .addPrimitive kind position => (s.addPrimitive now kind position).2
  | .updatePrimitive id patch => (s.updatePrimitive now id patch).2
  | .removePrimitive id => (s.removePrimitive now id).2
  | .movePrimitive id position => (s.movePrimitive now id position).2
  | .setParameter id parameter value => (s.setParameter now id parameter value).2
  | .setParameterFromJson id parameter raw => (s.setParameterFromJson now id parameter raw).2
  | .connect source target => (s.connect now source target).2
  | .removeConnection id => (s.removeConnection now id).2

/-- The store that is left after edits, each at its moment. -/
def run (s : Store) (edits : List (Timestamp × Edit)) : Store := edits.foldl (fun s e => s.perform e.1 e.2) s

/-- What holds at the start of a run and is kept by each edit of a kind holds at the end of a run of such edits. -/
theorem run_induction_of (allowed : Edit → Prop) {motive : Store → Prop}
    (h : ∀ s now edit, allowed edit → motive s → motive (s.perform now edit)) (s : Store)
    (edits : List (Timestamp × Edit)) (ha : ∀ e ∈ edits, allowed e.2) (hs : motive s) : motive (s.run edits) := by
  induction edits generalizing s with
  | nil => exact hs
  | cons e edits ih =>
    rw [List.forall_mem_cons] at ha
    exact ih _ ha.2 (h s e.1 e.2 ha.1 hs)

/-- What holds at the start of a run and is kept by each edit holds at its end. -/
theorem run_induction {motive : Store → Prop} (h : ∀ s now edit, motive s → motive (s.perform now edit)) (s : Store)
    (edits : List (Timestamp × Edit)) (hs : motive s) : motive (s.run edits) :=
  run_induction_of (fun _ => True) (fun s now edit _ => h s now edit) s edits (fun _ _ => trivial) hs

/-- A committed edit leaves the composition as it was, or as the edit leaves it. -/
theorem commit_composition {ε α : Type} (s : Store) (edit : Composition → Except ε α × Composition) :
    (s.commit edit).2.composition = s.composition ∨ (s.commit edit).2.composition = (edit s.composition).2 := by
  unfold commit
  split
  · rename_i a next h
    rw [h]
    exact Or.inr rfl
  · exact Or.inl rfl

/-- Where the edit succeeds, the store takes what it leaves. -/
theorem commit_of_ok {s : Store} {ε α : Type} (edit : Composition → Except ε α × Composition) {a : α}
    (h : (edit s.composition).1 = .ok a) :
    s.commit edit = (.ok a, { s with composition := (edit s.composition).2 }) := by
  unfold commit
  split
  · rename_i b next hedit
    rw [hedit] at h ⊢
    cases h
    rfl
  · rename_i e next hedit
    rw [hedit] at h
    cases h

/-- A committed removal leaves the composition as it was, or as the removal leaves it. -/
theorem commitRemoval_composition {α : Type} (s : Store) (removal : Composition → Option α × Composition) :
    (s.commitRemoval removal).2.composition = s.composition ∨
      (s.commitRemoval removal).2.composition = (removal s.composition).2 := by
  unfold commitRemoval
  split
  · rename_i a next h
    rw [h]
    exact Or.inr rfl
  · exact Or.inl rfl

/-- What the composition has and what an edit of it leaves has, the store has after the edit is committed. -/
theorem commit_keeps {motive : Composition → Prop} {ε α : Type} (s : Store)
    {edit : Composition → Except ε α × Composition} (hs : motive s.composition) (he : motive (edit s.composition).2) :
    motive (s.commit edit).2.composition := by
  rcases s.commit_composition edit with h | h
  · rwa [h]
  · rwa [h]

/-- What the composition has and what a removal leaves has, the store has after the removal is committed. -/
theorem commitRemoval_keeps {motive : Composition → Prop} {α : Type} (s : Store)
    {removal : Composition → Option α × Composition} (hs : motive s.composition)
    (hr : motive (removal s.composition).2) : motive (s.commitRemoval removal).2.composition := by
  rcases s.commitRemoval_composition removal with h | h
  · rwa [h]
  · rwa [h]

/-- Raw input is stored as the value it gives, or the store stays as it was. -/
theorem setParameterFromJson_cases (s : Store) (now : Timestamp) (id : PrimitiveId) (parameter : String) (raw : Json) :
    (s.setParameterFromJson now id parameter raw).2 = s ∨
      ∃ value, readParameter s.composition id parameter raw = .ok value ∧
        (s.setParameterFromJson now id parameter raw).2 = (s.setParameter now id parameter value).2 := by
  unfold setParameterFromJson
  split
  · exact Or.inl rfl
  · rename_i value h
    refine Or.inr ⟨value, h, ?_⟩
    split <;> rename_i hs <;> rw [hs]

/-- What raw input for a parameter of a primitive comes to: the first stage that fails, or a value that passes all. -/
inductive Reads (c : Composition) (id : PrimitiveId) (parameter : String) (raw : Json) :
    Except EditError ParameterValue → Prop where
  | missing (absent : id ∉ c.primitives.keys) : Reads c id parameter raw (.error (.lookup (.primitiveNotFound id)))
  | undeclared {p : Primitive} (found : c.primitive? id = some p)
      (absent : ∀ d ∈ p.kind.template.parameters, d.id ≠ parameter) :
      Reads c id parameter raw (.error (.parameter (.unknownParameter p.kind.tag parameter)))
  | unconverted {p : Primitive} {d : Parameter} {e : ParameterError} (found : c.primitive? id = some p)
      (declared : d ∈ p.kind.template.parameters ∧ d.id = parameter)
      (refused : ParameterValue.ofJson d.type raw = .error e) : Reads c id parameter raw (.error (.parameter e))
  | violated {p : Primitive} {d : Parameter} {value : ParameterValue} {v : Violation}
      (found : c.primitive? id = some p) (declared : d ∈ p.kind.template.parameters ∧ d.id = parameter)
      (converted : ParameterValue.ofJson d.type raw = .ok value) (refused : d.check value = .error v) :
      Reads c id parameter raw (.error (.violation v))
  | accepted {p : Primitive} {d : Parameter} {value : ParameterValue}
      (found : c.primitive? id = some p) (declared : d ∈ p.kind.template.parameters ∧ d.id = parameter)
      (converted : ParameterValue.ofJson d.type raw = .ok value) (passed : d.check value = .ok ()) :
      Reads c id parameter raw (.ok value)

/-- The stages are gone through in their order. -/
theorem readParameter_eq_iff {c : Composition} {id : PrimitiveId} {parameter : String} {raw : Json}
    {answer : Except EditError ParameterValue} :
    readParameter c id parameter raw = answer ↔ Reads c id parameter raw answer := by
  constructor
  · rintro rfl
    unfold readParameter
    split
    · rename_i hp
      exact .missing (OrderedMap.get?_eq_none_iff.mp hp)
    rename_i p hp
    split
    · rename_i hd
      exact .undeclared hp (Kind.parameter?_eq_none_iff.mp hd)
    rename_i d hd
    have hdeclared := Kind.parameter?_eq_some_iff.mp hd
    split
    · rename_i e he
      exact .unconverted hp hdeclared he
    rename_i value hv
    split
    · rename_i v hc
      exact .violated hp hdeclared hv hc
    · rename_i hc
      exact .accepted hp hdeclared hv hc
  · intro h
    cases h with
    | missing absent =>
      have hp : c.primitive? id = none := OrderedMap.get?_eq_none_iff.mpr absent
      simp [readParameter, hp]
    | undeclared found absent => simp [readParameter, found, Kind.parameter?_eq_none_iff.mpr absent]
    | unconverted found declared refused =>
      simp [readParameter, found, Kind.parameter?_eq_some_iff.mpr declared, refused]
    | violated found declared converted refused =>
      simp [readParameter, found, Kind.parameter?_eq_some_iff.mpr declared, converted, refused]
    | accepted found declared converted passed =>
      simp [readParameter, found, Kind.parameter?_eq_some_iff.mpr declared, converted, passed]

/-- Raw input gives a value for a parameter that the kind of the primitive declares, and the value passes the check. -/
theorem readParameter_ok {c : Composition} {id : PrimitiveId} {parameter : String} {raw : Json} {value : ParameterValue}
    {p : Primitive} (hp : c.primitive? id = some p) (h : readParameter c id parameter raw = .ok value) :
    ∃ d, p.kind.template.parameter? parameter = some d ∧ ParameterValue.ofJson d.type raw = .ok value ∧
      d.check value = .ok () := by
  cases readParameter_eq_iff.mp h with
  | accepted found declared converted passed =>
    obtain rfl := Option.some.inj (hp.symm.trans found)
    exact ⟨_, Kind.parameter?_eq_some_iff.mpr declared, converted, passed⟩

/-- Raw input is answered as it is read: where it gives a value, the primitive is there and storing does not fail. -/
theorem setParameterFromJson_answer (s : Store) (now : Timestamp) (id : PrimitiveId) (parameter : String) (raw : Json) :
    (s.setParameterFromJson now id parameter raw).1 = readParameter s.composition id parameter raw := by
  cases hr : readParameter s.composition id parameter raw with
  | error e => simp [setParameterFromJson, hr]
  | ok value =>
    cases readParameter_eq_iff.mp hr with
    | accepted found declared converted passed =>
      obtain ⟨hanswer, -⟩ :=
        Composition.update_of_found found now fun p => { p with parameters := p.parameters.insert parameter value }
      have hset := commit_of_ok (s := s) (·.setParameter now id parameter value) hanswer
      simp [setParameterFromJson, hr, setParameter, hset]

/-- A value that is answered was read from the input, and takes its place in the primitive. -/
theorem setParameterFromJson_of_ok {s : Store} {now : Timestamp} {id : PrimitiveId} {parameter : String} {raw : Json}
    {value : ParameterValue} (h : (s.setParameterFromJson now id parameter raw).1 = .ok value) :
    ∃ p, s.composition.primitive? id = some p ∧ readParameter s.composition id parameter raw = .ok value ∧
      (s.setParameterFromJson now id parameter raw).2 = { s with composition := { s.composition with
        primitives := s.composition.primitives.insert id { p with parameters := p.parameters.insert parameter value }
        updatedAt := now } } := by
  rw [setParameterFromJson_answer] at h
  cases readParameter_eq_iff.mp h with
  | accepted found declared converted passed =>
    refine ⟨_, found, h, ?_⟩
    simp [setParameterFromJson, h, setParameter, commit, Composition.setParameter, Composition.update, found]

end Store

/-! ## What an edit makes of the primitives -/

/-- The primitives that an edit makes in a composition: a fresh one, or one that stands under the given name with its
change. -/
inductive Edit.Makes (c : Composition) : Edit → Primitive → Prop where
  | added (kind : Kind) (position : Position) :
      Makes c (.addPrimitive kind position) (Catalog.instantiate kind position c.ids).1
  | patched {id : PrimitiveId} {p : Primitive} (found : c.primitive? id = some p) (patch : PrimitivePatch) :
      Makes c (.updatePrimitive id patch) (p.apply patch)
  | moved {id : PrimitiveId} {p : Primitive} (found : c.primitive? id = some p) (position : Position) :
      Makes c (.movePrimitive id position) { p with position }
  | stored {id : PrimitiveId} {p : Primitive} (found : c.primitive? id = some p) (parameter : String)
      (value : ParameterValue) :
      Makes c (.setParameter id parameter value) { p with parameters := p.parameters.insert parameter value }
  | read {id : PrimitiveId} {p : Primitive} {parameter : String} {raw : Json} {value : ParameterValue}
      (found : c.primitive? id = some p) (accepted : Store.readParameter c id parameter raw = .ok value) :
      Makes c (.setParameterFromJson id parameter raw)
        { p with parameters := p.parameters.insert parameter value }

namespace Store

/-- After a change was committed, a primitive is one of before, or what the change made of one. -/
theorem mem_values_commit_update {s : Store} {now : Timestamp} {id : PrimitiveId} {change : Primitive → Primitive}
    {q : Primitive} (h : q ∈ (s.commit (·.update now id change)).2.composition.primitives.values) :
    q ∈ s.composition.primitives.values ∨ ∃ p, s.composition.primitive? id = some p ∧ q = change p := by
  rcases s.commit_composition (·.update now id change) with hc | hc <;> rw [hc] at h
  · exact Or.inl h
  · exact Composition.mem_values_update h

/-- After an edit a primitive is as it was, or the edit made it. -/
theorem mem_values_perform {s : Store} {now : Timestamp} {edit : Edit} {q : Primitive}
    (h : q ∈ (s.perform now edit).composition.primitives.values) :
    q ∈ s.composition.primitives.values ∨ edit.Makes s.composition q := by
  cases edit with
  | addPrimitive kind position =>
    rcases OrderedMap.mem_values_insert h with rfl | h
    · exact Or.inr (.added kind position)
    · exact Or.inl h
  | updatePrimitive id patch =>
    rcases mem_values_commit_update h with h | ⟨p, hp, rfl⟩
    · exact Or.inl h
    · exact Or.inr (.patched hp patch)
  | removePrimitive id =>
    rcases s.commitRemoval_composition (·.removePrimitive now id) with hc | hc <;> rw [perform, removePrimitive, hc] at h
    · exact Or.inl h
    · exact Or.inl (Composition.mem_values_removePrimitive h)
  | movePrimitive id position =>
    rcases mem_values_commit_update h with h | ⟨p, hp, rfl⟩
    · exact Or.inl h
    · exact Or.inr (.moved hp position)
  | setParameter id parameter value =>
    rcases mem_values_commit_update h with h | ⟨p, hp, rfl⟩
    · exact Or.inl h
    · exact Or.inr (.stored hp parameter value)
  | setParameterFromJson id parameter raw =>
    rcases s.setParameterFromJson_cases now id parameter raw with hs | ⟨value, hr, hs⟩ <;> rw [perform, hs] at h
    · exact Or.inl h
    · rcases mem_values_commit_update h with h | ⟨p, hp, rfl⟩
      · exact Or.inl h
      · exact Or.inr (.read hp hr)
  | connect source target =>
    rcases s.commit_composition (·.connect now source target) with hc | hc <;> rw [perform, connect, hc] at h
    · exact Or.inl h
    · rw [Composition.connect_primitives] at h
      exact Or.inl h
  | removeConnection id =>
    rcases s.commitRemoval_composition (·.removeConnection now id) with hc | hc <;>
      rw [perform, removeConnection, hc] at h
    · exact Or.inl h
    · rw [Composition.removeConnection_primitives] at h
      exact Or.inl h

end Store

/-! ## The names under which primitives stand -/

/-- Every primitive stands under its own name. -/
def Composition.IsNamed (c : Composition) : Prop := ∀ e ∈ c.primitives.entries, e.2.id = e.1

namespace Composition.IsNamed

variable {c : Composition}

/-- A primitive that is inserted under its own name stands under it. -/
theorem insert (h : c.IsNamed) (p : Primitive) (ids : IdSupply) (now : Timestamp) :
    ({ c with primitives := c.primitives.insert p.id p, ids, updatedAt := now } : Composition).IsNamed := by
  intro e he
  rcases OrderedMap.mem_entries_insert he with rfl | he
  · rfl
  · exact h e he

/-- A change that keeps the name of a primitive leaves it under its name. -/
theorem update (h : c.IsNamed) (now : Timestamp) (id : PrimitiveId) {change : Primitive → Primitive}
    (hid : ∀ p, (change p).id = p.id) : (c.update now id change).2.IsNamed := by
  rcases c.update_cases now id change with hc | ⟨hentries, -, -⟩
  · rwa [hc]
  · intro e he
    rw [hentries, List.mem_map] at he
    obtain ⟨d, hd, rfl⟩ := he
    dsimp only
    split
    · rw [hid]
      exact h d hd
    · exact h d hd

/-- What a removal leaves stands where it stood. -/
theorem removePrimitive (h : c.IsNamed) (now : Timestamp) (id : PrimitiveId) :
    (c.removePrimitive now id).2.IsNamed := by
  unfold Composition.removePrimitive
  split
  · exact h
  · exact fun e he => h e ((OrderedMap.entries_erase_sublist _ _).subset he)

end Composition.IsNamed

namespace Store

/-- Every edit leaves the primitives under their names. -/
theorem perform_isNamed (s : Store) (now : Timestamp) (edit : Edit) (h : s.composition.IsNamed) :
    (s.perform now edit).composition.IsNamed := by
  cases edit with
  | addPrimitive kind position => exact h.insert _ _ now
  | updatePrimitive id patch => exact s.commit_keeps h (h.update now id fun _ => rfl)
  | removePrimitive id => exact s.commitRemoval_keeps h (h.removePrimitive now id)
  | movePrimitive id position => exact s.commit_keeps h (h.update now id fun _ => rfl)
  | setParameter id parameter value => exact s.commit_keeps h (h.update now id fun _ => rfl)
  | setParameterFromJson id parameter raw =>
    rcases s.setParameterFromJson_cases now id parameter raw with hs | ⟨value, -, hs⟩ <;> rw [perform, hs]
    · exact h
    · exact s.commit_keeps h (h.update now id fun _ => rfl)
  | connect source target =>
    refine s.commit_keeps h ?_
    rw [Composition.IsNamed, Composition.connect_primitives]
    exact h
  | removeConnection id =>
    refine s.commitRemoval_keeps h ?_
    rw [Composition.IsNamed, Composition.removeConnection_primitives]
    exact h

/-- A run leaves the primitives under their names. -/
theorem run_isNamed (s : Store) (edits : List (Timestamp × Edit)) (h : s.composition.IsNamed) :
    (s.run edits).composition.IsNamed :=
  run_induction (motive := fun s => s.composition.IsNamed) perform_isNamed s edits h

/-! ## What an edit makes of the connections -/

/-- Committing a change to a primitive makes no connection. -/
theorem mem_connections_commit_update {s : Store} {now : Timestamp} {id : PrimitiveId} {change : Primitive → Primitive}
    {k : Connection} (h : k ∈ (s.commit (·.update now id change)).2.composition.connections.values) :
    k ∈ s.composition.connections.values := by
  rcases s.commit_composition (·.update now id change) with hc | hc <;> rw [hc] at h
  · exact h
  · rwa [Composition.update_connections] at h

/-- After an edit a connection is one that was there, or the one that the edit was asked for and answers. -/
theorem mem_connections_perform {s : Store} {now : Timestamp} {edit : Edit} {k : Connection}
    (h : k ∈ (s.perform now edit).composition.connections.values) :
    k ∈ s.composition.connections.values ∨
      edit = .connect k.source k.target ∧ (s.connect now k.source k.target).1 = .ok k := by
  cases edit with
  | addPrimitive kind position => exact Or.inl h
  | updatePrimitive id patch => exact Or.inl (mem_connections_commit_update h)
  | removePrimitive id =>
    rcases s.commitRemoval_composition (·.removePrimitive now id) with hc | hc <;> rw [perform, removePrimitive, hc] at h
    · exact Or.inl h
    · exact Or.inl (Composition.mem_connections_removePrimitive h)
  | movePrimitive id position => exact Or.inl (mem_connections_commit_update h)
  | setParameter id parameter value => exact Or.inl (mem_connections_commit_update h)
  | setParameterFromJson id parameter raw =>
    rcases s.setParameterFromJson_cases now id parameter raw with hs | ⟨value, -, hs⟩ <;> rw [perform, hs] at h
    · exact Or.inl h
    · exact Or.inl (mem_connections_commit_update h)
  | connect source target =>
    cases hr : s.composition.resolve source target with
    | error e =>
      simp only [perform, connect, commit, Composition.connect_of_error hr] at h
      exact Or.inl h
    | ok r =>
      simp only [perform, connect, commit, Composition.connect_of_ok hr] at h
      rcases OrderedMap.mem_values_insert h with rfl | h
      · exact Or.inr ⟨rfl, by simp only [connect, commit, Composition.connect_of_ok hr]⟩
      · exact Or.inl h
  | removeConnection id =>
    rcases s.commitRemoval_composition (·.removeConnection now id) with hc | hc <;>
      rw [perform, removeConnection, hc] at h
    · exact Or.inl h
    · exact Or.inl (Composition.mem_connections_removeConnection h)

end Store

/-- A composition is reachable when a new store holds it after some run of edits. -/
def Composition.Reachable (c : Composition) : Prop :=
  ∃ (id : Uuid) (now : Timestamp) (name description : String) (edits : List (Timestamp × Edit)),
    ((Store.new id now name description).run edits).composition = c

end DefiComposer
