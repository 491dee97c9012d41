import DefiComposer.Proofs.Operations
import DefiComposer.Proofs.Releases
import DefiComposer.Proofs.Runs
import Mathlib.Data.List.Flatten

/-!
# Well-formed compositions

`Composition.WellFormed` says that the parts of a composition fit together: names and counters, ports and templates,
connections and the ports they join. Every operation keeps it, so whatever edits a store performs, failing or not, the
composition it holds is well-formed (`run_wellFormed`). The conditions carry each other: a connection outlives the removal
of a primitive only because the ports it joins belong to others, and a fresh port is new because every port is below the
counter.
-/

namespace DefiComposer

/-- All ports, primitive after primitive. -/
def Composition.ports (c : Composition) : List Port := c.primitives.values.flatMap (·.ports)

/-- A connection joins ports of the composition: an output port of one primitive and an input port of another, with the tag
of the output port, and the two tags go together. -/
def Composition.Joins (c : Composition) (k : Connection) : Prop :=
  ∃ p ∈ c.primitives.values, ∃ q ∈ c.primitives.values, ∃ source ∈ p.outputs, ∃ target ∈ q.inputs,
    source.id = k.source ∧ target.id = k.target ∧ p.id ≠ q.id ∧ k.resourceType = source.resourceType ∧
      (compatibility source.resourceType target.resourceType).isSome

/-- The parts of a composition fit together. -/
structure Composition.WellFormed (c : Composition) : Prop where
  /-- Each primitive stands under its own name. -/
  primitivesNamed : ∀ e ∈ c.primitives.entries, e.2.id = e.1
  /-- Each connection stands under its own name. -/
  connectionsNamed : ∀ e ∈ c.connections.entries, e.2.id = e.1
  primitivesBelow : ∀ p ∈ c.primitives.values, p.id.val < c.ids.nextPrimitive
  portsBelow : ∀ port ∈ c.ports, port.id.val < c.ids.nextPort
  connectionsBelow : ∀ k ∈ c.connections.values, k.id.val < c.ids.nextConnection
  /-- No two ports have one name, whatever primitives and sides they are on. -/
  portsDistinct : (c.ports.map (·.id)).Nodup
  /-- Each primitive has the ports that its kind declares, and they name it and their side. -/
  follow : ∀ p ∈ c.primitives.values, p.FollowsTemplate
  joined : ∀ k ∈ c.connections.values, c.Joins k
  /-- No two connections join the same two ports. -/
  pairsDistinct : (c.connections.values.map fun k => (k.source, k.target)).Nodup

namespace Composition

/-- A composition without parts is well-formed. -/
theorem new_wellFormed (id : Uuid) (now : Timestamp) (name description : String) :
    (Composition.new id now name description).WellFormed where
  primitivesNamed := nofun
  connectionsNamed := nofun
  primitivesBelow := nofun
  portsBelow := nofun
  connectionsBelow := nofun
  portsDistinct := List.nodup_nil
  follow := nofun
  joined := nofun
  pairsDistinct := List.nodup_nil

end Composition

/-! ## What no update changes -/

/-- What no update changes of a primitive: its name, its kind and its ports. -/
def Primitive.frame (p : Primitive) : PrimitiveId × Kind × List Port × List Port := (p.id, p.kind, p.inputs, p.outputs)

/-- Two primitives have one frame exactly when names, kinds and ports agree. -/
theorem Primitive.frame_eq_iff {p q : Primitive} :
    p.frame = q.frame ↔ p.id = q.id ∧ p.kind = q.kind ∧ p.inputs = q.inputs ∧ p.outputs = q.outputs := by
  simp [frame]

/-- Whether a primitive follows its template is told by its frame. -/
theorem Primitive.FollowsTemplate.of_frame {p q : Primitive} (h : p.FollowsTemplate) (hf : q.frame = p.frame) :
    q.FollowsTemplate := by
  obtain ⟨hid, hk, hi, ho⟩ := Primitive.frame_eq_iff.mp hf
  constructor
  · rw [hid, hk, hi]
    exact h.inputs
  · rw [hid, hk, ho]
    exact h.outputs

namespace Composition

/-- The primitives of two compositions differ in what updates change only, name by name. -/
def SameFrames (c c' : Composition) : Prop :=
  c'.primitives.entries.map (fun e => (e.1, e.2.frame)) = c.primitives.entries.map fun e => (e.1, e.2.frame)

namespace SameFrames

variable {c c' : Composition}

theorem symm (h : SameFrames c c') : SameFrames c' c := Eq.symm h

/-- An entry has its counterpart, under the same key and with the same frame. -/
theorem exists_entry (h : SameFrames c c') {e : PrimitiveId × Primitive} (he : e ∈ c'.primitives.entries) :
    ∃ d ∈ c.primitives.entries, d.1 = e.1 ∧ d.2.frame = e.2.frame := by
  have hm : (e.1, e.2.frame) ∈ c.primitives.entries.map fun e => (e.1, e.2.frame) := by
    rw [← h]
    exact List.mem_map_of_mem he
  obtain ⟨d, hd, heq⟩ := List.mem_map.mp hm
  exact ⟨d, hd, Prod.mk.inj heq⟩

theorem exists_value (h : SameFrames c c') {p : Primitive} (hp : p ∈ c'.primitives.values) :
    ∃ q ∈ c.primitives.values, q.frame = p.frame := by
  obtain ⟨k, hk⟩ := OrderedMap.exists_mem_entries hp
  obtain ⟨d, hd, -, hf⟩ := h.exists_entry hk
  exact ⟨d.2, OrderedMap.mem_values_of_mem hd, hf⟩

/-- The ports are the same, in the same order. -/
theorem ports_eq (h : SameFrames c c') : c'.ports = c.ports := by
  have hp : ∀ d : Composition,
      d.ports = (d.primitives.entries.map fun e => (e.1, e.2.frame)).flatMap fun e => e.2.2.2.1 ++ e.2.2.2.2 := by
    intro d
    simp only [ports, OrderedMap.values, List.flatMap_map]
    rfl
  rw [hp c, hp c', h]

/-- Whether a connection joins two primitives is told by their frames. -/
theorem joins (h : SameFrames c c') {k : Connection} (hk : c.Joins k) : c'.Joins k := by
  obtain ⟨p, hp, q, hq, source, hs, target, ht, h1, h2, hne, h3, h4⟩ := hk
  obtain ⟨p', hp', hpf⟩ := h.symm.exists_value hp
  obtain ⟨q', hq', hqf⟩ := h.symm.exists_value hq
  obtain ⟨hpi, -, -, hpo⟩ := Primitive.frame_eq_iff.mp hpf
  obtain ⟨hqi, -, hqn, -⟩ := Primitive.frame_eq_iff.mp hqf
  exact ⟨p', hp', q', hq', source, hpo ▸ hs, target, hqn ▸ ht, h1, h2, by rw [hpi, hqi]; exact hne, h3, h4⟩

/-- Whether a composition is well-formed depends on the frames of its primitives only. -/
theorem wellFormed (h : SameFrames c c') (hk : c'.connections = c.connections) (hi : c'.ids = c.ids)
    (hw : c.WellFormed) : c'.WellFormed where
  primitivesNamed := by
    intro e he
    obtain ⟨d, hd, hkey, hf⟩ := h.exists_entry he
    rw [← (Primitive.frame_eq_iff.mp hf).1, ← hkey]
    exact hw.primitivesNamed d hd
  connectionsNamed := by
    rw [hk]
    exact hw.connectionsNamed
  primitivesBelow := by
    intro p hp
    obtain ⟨q, hq, hf⟩ := h.exists_value hp
    rw [← (Primitive.frame_eq_iff.mp hf).1, hi]
    exact hw.primitivesBelow q hq
  portsBelow := by
    rw [h.ports_eq, hi]
    exact hw.portsBelow
  connectionsBelow := by
    rw [hk, hi]
    exact hw.connectionsBelow
  portsDistinct := by
    rw [h.ports_eq]
    exact hw.portsDistinct
  follow := by
    intro p hp
    obtain ⟨q, hq, hf⟩ := h.exists_value hp
    exact (hw.follow q hq).of_frame hf.symm
  joined := by
    intro k hm
    rw [hk] at hm
    exact h.joins (hw.joined k hm)
  pairsDistinct := by
    rw [hk]
    exact hw.pairsDistinct

end SameFrames

/-- An update that keeps frames gives a composition with the same frames, connections and counters. -/
theorem update_sameFrames (c : Composition) (now : Timestamp) (id : PrimitiveId) {change : Primitive → Primitive}
    (hc : ∀ p, (change p).frame = p.frame) :
    SameFrames c (c.update now id change).2 ∧ (c.update now id change).2.connections = c.connections ∧
      (c.update now id change).2.ids = c.ids := by
  rcases c.update_cases now id change with h | ⟨he, hk, hi⟩
  · rw [h]
    exact ⟨rfl, rfl, rfl⟩
  · refine ⟨?_, hk, hi⟩
    rw [SameFrames, he, List.map_map]
    refine List.map_congr_left fun e _ => ?_
    simp only [Function.comp_apply]
    split
    · rw [hc]
    · rfl

namespace WellFormed

variable {c : Composition}

/-! ## What keeps a composition well-formed -/

/-- A change that keeps the frame of a primitive keeps a composition well-formed. -/
theorem update (h : c.WellFormed) (now : Timestamp) (id : PrimitiveId) {change : Primitive → Primitive}
    (hc : ∀ p, (change p).frame = p.frame) : (c.update now id change).2.WellFormed := by
  obtain ⟨hf, hk, hi⟩ := c.update_sameFrames now id hc
  exact hf.wellFormed hk hi h

/-- The names that the counters give next are new. -/
theorem fresh_primitive (h : c.WellFormed) : (⟨c.ids.nextPrimitive⟩ : PrimitiveId) ∉ c.primitives.keys := by
  intro hm
  obtain ⟨e, he, hk⟩ := List.mem_map.mp hm
  have hlt := h.primitivesBelow e.2 (OrderedMap.mem_values_of_mem he)
  rw [h.primitivesNamed e he, hk] at hlt
  exact Nat.lt_irrefl _ hlt

/-- The name of a new primitive is not among those that are there. -/
theorem fresh_id (h : c.WellFormed) {kind : Kind} {ids : IdSupply} {p : Primitive} (hp : Catalog.Fresh kind c.ids ids p) :
    p.id ∉ c.primitives.keys := by
  rw [hp.named]
  exact h.fresh_primitive

/-- The name of the next connection is not among those that are there. -/
theorem fresh_connection (h : c.WellFormed) : (⟨c.ids.nextConnection⟩ : ConnectionId) ∉ c.connections.keys := by
  intro hm
  obtain ⟨e, he, hk⟩ := List.mem_map.mp hm
  have hlt := h.connectionsBelow e.2 (OrderedMap.mem_values_of_mem he)
  rw [h.connectionsNamed e he, hk] at hlt
  exact Nat.lt_irrefl _ hlt

/-- A connection that joins ports joins them after more primitives are there. -/
theorem joins_mono {c' : Composition} (hp : ∀ p ∈ c.primitives.values, p ∈ c'.primitives.values) {k : Connection}
    (hk : c.Joins k) : c'.Joins k := by
  obtain ⟨p, hpm, q, hqm, rest⟩ := hk
  exact ⟨p, hp p hpm, q, hp q hqm, rest⟩

/-- Adding a fresh primitive keeps a composition well-formed. -/
theorem addFresh (h : c.WellFormed) (now : Timestamp) {kind : Kind} {ids : IdSupply} {p : Primitive}
    (hp : Catalog.Fresh kind c.ids ids p) :
    ({ c with primitives := c.primitives.insert p.id p, ids, updatedAt := now } : Composition).WellFormed := by
  have hportIds := fun port (hm : port ∈ p.ports) => hp.port_range hm
  have hnew := h.fresh_id hp
  obtain ⟨hid, hkind, hfollow, hports, rfl⟩ := hp
  have hvalues := OrderedMap.values_insert_of_not_mem (v := p) hnew
  refine ⟨?_, h.connectionsNamed, ?_, ?_, h.connectionsBelow, ?_, ?_, ?_, h.pairsDistinct⟩
  · intro e he
    rw [OrderedMap.entries_insert_of_not_mem hnew, List.mem_append, List.mem_singleton] at he
    rcases he with he | rfl
    · exact h.primitivesNamed e he
    · rfl
  · intro q hq
    rw [hvalues, List.mem_append, List.mem_singleton] at hq
    rcases hq with hq | rfl
    · exact Nat.lt_succ_of_lt (h.primitivesBelow q hq)
    · rw [hid]
      exact Nat.lt_succ_self _
  · intro port hp
    rw [Composition.ports, hvalues, List.flatMap_append, List.mem_append] at hp
    rcases hp with hp | hp
    · have := h.portsBelow port hp
      exact Nat.lt_of_lt_of_le this (Nat.le_add_right _ _)
    · rw [List.flatMap_singleton] at hp
      exact (hportIds port hp).2
  · -- the old ports are below the counter and the new ones are not
    rw [Composition.ports, hvalues, List.flatMap_append, List.flatMap_singleton, List.map_append, List.nodup_append]
    refine ⟨h.portsDistinct, ?_, ?_⟩
    · rw [hports]
      exact List.Nodup.map (fun a b hab => congrArg PortId.val hab) List.nodup_range'
    · intro a ha b hb hab
      obtain ⟨port, hp, rfl⟩ := List.mem_map.mp ha
      obtain ⟨port', hp', rfl⟩ := List.mem_map.mp hb
      have h1 := h.portsBelow port hp
      have h2 := (hportIds port' hp').1
      rw [hab] at h1
      omega
  · intro q hq
    rw [hvalues, List.mem_append, List.mem_singleton] at hq
    rcases hq with hq | rfl
    · exact h.follow q hq
    · exact hfollow
  · intro k hk
    refine joins_mono (fun q hq => ?_) (h.joined k hk)
    rw [hvalues]
    exact List.mem_append_left _ hq

/-- Adding a primitive keeps a composition well-formed: its names come from the counters, which go up with them. -/
theorem addPrimitive (h : c.WellFormed) (now : Timestamp) (kind : Kind) (position : Position) :
    (c.addPrimitive now kind position).2.WellFormed :=
  h.addFresh now (Catalog.instantiate_fresh kind position c.ids)

/-- Dropping connections keeps a composition well-formed. -/
theorem filterConnections (h : c.WellFormed) {connections : OrderedMap ConnectionId Connection}
    (hs : connections.entries.Sublist c.connections.entries) (now : Timestamp) :
    ({ c with connections, updatedAt := now } : Composition).WellFormed where
  primitivesNamed := h.primitivesNamed
  connectionsNamed := fun e he => h.connectionsNamed e (hs.subset he)
  primitivesBelow := h.primitivesBelow
  portsBelow := h.portsBelow
  connectionsBelow := fun k hk => h.connectionsBelow k ((hs.map Prod.snd).subset hk)
  portsDistinct := h.portsDistinct
  follow := h.follow
  joined := fun k hk => h.joined k ((hs.map Prod.snd).subset hk)
  pairsDistinct := ((hs.map Prod.snd).map _).nodup h.pairsDistinct

theorem removeConnection (h : c.WellFormed) (now : Timestamp) (id : ConnectionId) :
    (c.removeConnection now id).2.WellFormed := by
  unfold Composition.removeConnection
  split
  · exact h
  · exact h.filterConnections (OrderedMap.entries_erase_sublist _ _) now

/-- Erasing a primitive whose ports no connection uses keeps a composition well-formed. -/
theorem erasePrimitive (h : c.WellFormed) {id : PrimitiveId} {p : Primitive} (hp : c.primitive? id = some p)
    (hfree : ∀ k ∈ c.connections.values, p.touches k = false) :
    ({ c with primitives := c.primitives.erase id } : Composition).WellFormed := by
  have hs := OrderedMap.entries_erase_sublist c.primitives id
  have hv : (c.primitives.erase id).values.Sublist c.primitives.values := hs.map Prod.snd
  have hports : ({ c with primitives := c.primitives.erase id } : Composition).ports.Sublist c.ports := hv.flatMap _
  -- a primitive with a port that some connection uses is not the erased one
  have hstay : ∀ q ∈ c.primitives.values, ∀ k ∈ c.connections.values, q.touches k = true →
      q ∈ (c.primitives.erase id).values := by
    intro q hq k hk ht
    obtain ⟨key, hkey⟩ := OrderedMap.exists_mem_entries hq
    refine OrderedMap.mem_values_of_mem (OrderedMap.mem_entries_erase.mpr ⟨hkey, fun he => ?_⟩)
    have hpq : p = q := OrderedMap.eq_of_mem_entries (k := id) (OrderedMap.get?_eq_some_iff.mp hp) (he ▸ hkey)
    rw [← hpq, hfree k hk] at ht
    cases ht
  refine ⟨fun e he => h.primitivesNamed e (hs.subset he), h.connectionsNamed,
    fun q hq => h.primitivesBelow q (hv.subset hq), fun port hm => h.portsBelow port (hports.subset hm),
    h.connectionsBelow, (hports.map _).nodup h.portsDistinct, fun q hq => h.follow q (hv.subset hq), ?_,
    h.pairsDistinct⟩
  intro k hk
  obtain ⟨a, ha, b, hb, source, hsm, target, htm, h1, h2, rest⟩ := h.joined k hk
  refine ⟨a, hstay a ha k hk ?_, b, hstay b hb k hk ?_, source, hsm, target, htm, h1, h2, rest⟩
  · simp only [Primitive.touches, Primitive.ownsPort, Primitive.ports, Bool.or_eq_true, List.any_eq_true]
    exact Or.inl ⟨source, List.mem_append_right _ hsm, by simpa using h1⟩
  · simp only [Primitive.touches, Primitive.ownsPort, Primitive.ports, Bool.or_eq_true, List.any_eq_true]
    exact Or.inr ⟨target, List.mem_append_left _ htm, by simpa using h2⟩

/-- Removing a primitive keeps a composition well-formed: the connections at it go with it. -/
theorem removePrimitive (h : c.WellFormed) (now : Timestamp) (id : PrimitiveId) :
    (c.removePrimitive now id).2.WellFormed := by
  unfold Composition.removePrimitive
  split
  · exact h
  · rename_i p hp
    -- the connections at its ports go first, so that none is left when the primitive goes
    have hf := h.filterConnections (OrderedMap.filter_entries_sublist (fun k => !p.touches k) c.connections) now
    refine hf.erasePrimitive hp fun k hk => ?_
    rw [OrderedMap.values_filter, List.mem_filter] at hk
    simpa using hk.2

/-- Adding the connection that a resolution stands for keeps a composition well-formed. -/
theorem addConnection (h : c.WellFormed) (now : Timestamp) {source target : PortId} {r : Resolution}
    (hr : c.resolve source target = .ok r) :
    let k : Connection := ⟨⟨c.ids.nextConnection⟩, source, target, r.source.resourceType⟩
    ({ c with
        connections := c.connections.insert k.id k
        ids := { c.ids with nextConnection := c.ids.nextConnection + 1 }
        updatedAt := now } : Composition).WellFormed := by
  intro k
  obtain ⟨hs, ht, howner, hnone, htier⟩ := Composition.resolve_eq_ok_iff.mp hr
  obtain ⟨p, hp, hps, hsid⟩ := Composition.output?_some hs
  obtain ⟨q, hq, hqt, htid⟩ := Composition.input?_some ht
  have hnew : k.id ∉ c.connections.keys := h.fresh_connection
  have hvalues := OrderedMap.values_insert_of_not_mem (v := k) hnew
  have hjoins : c.Joins k := by
    refine ⟨p, hp, q, hq, r.source, hps, r.target, hqt, hsid, htid, ?_, rfl, by rw [htier]; rfl⟩
    rw [← (h.follow p hp).outputs.owner _ hps, ← (h.follow q hq).inputs.owner _ hqt]
    exact howner
  refine ⟨h.primitivesNamed, ?_, h.primitivesBelow, h.portsBelow, ?_, h.portsDistinct, h.follow, ?_, ?_⟩
  · intro e he
    rw [OrderedMap.entries_insert_of_not_mem hnew, List.mem_append, List.mem_singleton] at he
    rcases he with he | rfl
    · exact h.connectionsNamed e he
    · rfl
  · intro j hj
    rw [hvalues, List.mem_append, List.mem_singleton] at hj
    rcases hj with hj | rfl
    · exact Nat.lt_succ_of_lt (h.connectionsBelow j hj)
    · exact Nat.lt_succ_self _
  · intro j hj
    rw [hvalues, List.mem_append, List.mem_singleton] at hj
    rcases hj with hj | rfl
    · exact joins_mono (fun _ hm => hm) (h.joined j hj)
    · exact joins_mono (fun _ hm => hm) hjoins
  · rw [hvalues, List.map_append, List.nodup_append]
    refine ⟨h.pairsDistinct, by simp, ?_⟩
    intro a ha b hb hab
    obtain ⟨j, hj, rfl⟩ := List.mem_map.mp ha
    rw [List.map_singleton, List.mem_singleton] at hb
    refine Composition.between?_eq_none_iff.mp hnone j hj ?_
    rw [hab, hb]

/-- Connecting two ports keeps a composition well-formed: a connection is made only where the resolution allows one. -/
theorem connect (h : c.WellFormed) (now : Timestamp) (source target : PortId) :
    (c.connect now source target).2.WellFormed := by
  cases hr : c.resolve source target with
  | error e =>
    rw [Composition.connect_of_error hr]
    exact h
  | ok r =>
    rw [Composition.connect_of_ok hr]
    exact h.addConnection now hr

end WellFormed

end Composition

/-! ## Runs -/

namespace Store

/-- A committed update that keeps frames keeps the composition of a store well-formed. -/
theorem commit_update_wellFormed (s : Store) (now : Timestamp) (id : PrimitiveId) {change : Primitive → Primitive}
    (hc : ∀ p, (change p).frame = p.frame) (h : s.composition.WellFormed) :
    (s.commit (·.update now id change)).2.composition.WellFormed :=
  s.commit_keeps h (h.update now id hc)

/-- Every edit of a store keeps its composition well-formed. -/
theorem perform_wellFormed (s : Store) (now : Timestamp) (edit : Edit) (h : s.composition.WellFormed) :
    (s.perform now edit).composition.WellFormed := by
  cases edit with
  | addPrimitive kind position => exact h.addPrimitive now kind position
  | updatePrimitive id patch => exact s.commit_update_wellFormed now id (fun _ => rfl) h
  | removePrimitive id => exact s.commitRemoval_keeps h (h.removePrimitive now id)
  | movePrimitive id position => exact s.commit_update_wellFormed now id (fun _ => rfl) h
  | setParameter id parameter value => exact s.commit_update_wellFormed now id (fun _ => rfl) h
  | setParameterFromJson id parameter raw =>
    rcases s.setParameterFromJson_cases now id parameter raw with hs | ⟨value, -, hs⟩
    · simp only [perform, hs]
      exact h
    · simp only [perform, hs]
      exact s.commit_update_wellFormed now id (fun _ => rfl) h
  | connect source target => exact s.commit_keeps h (h.connect now source target)
  | removeConnection id => exact s.commitRemoval_keeps h (h.removeConnection now id)

/-- Every run of edits keeps the composition of a store well-formed. -/
theorem wellFormed_run (s : Store) (edits : List (Timestamp × Edit)) (h : s.composition.WellFormed) :
    (s.run edits).composition.WellFormed :=
  run_induction (motive := fun s => s.composition.WellFormed) perform_wellFormed s edits h

end Store

namespace Composition

variable {c : Composition}

/-- No two primitives of a well-formed composition share a name. -/
theorem WellFormed.ids_nodup (h : c.WellFormed) : c.insertionOrder.Nodup := insertionOrder_nodup h.primitivesNamed

/-- A well-formed composition has a module for all options. -/
theorem WellFormed.exists_toModule? (h : c.WellFormed) (options : Move.Options) :
    ∃ module, c.toModule? options = some module :=
  Composition.exists_toModule? options (Or.inr h.ids_nodup)

/-- Every reachable composition is well-formed. -/
theorem Reachable.wellFormed (h : c.Reachable) : c.WellFormed := by
  obtain ⟨id, now, name, description, edits, rfl⟩ := h
  exact Store.wellFormed_run _ edits (new_wellFormed id now name description)

end Composition

/-- The parts of the composition of a new store, named or not, fit together after any edits, whether these succeed or
fail. -/
theorem run_wellFormed (id : Uuid) (now : Timestamp) (edits : List (Timestamp × Edit)) :
    (∀ name description : String, ((Store.new id now name description).run edits).composition.WellFormed) ∧
      ((Store.untitled id now).run edits).composition.WellFormed :=
  ⟨fun name description => Composition.Reachable.wellFormed ⟨id, now, name, description, edits, rfl⟩,
    Composition.Reachable.wellFormed ⟨id, now, _, _, edits, rfl⟩⟩

end DefiComposer
