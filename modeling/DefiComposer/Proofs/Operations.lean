import DefiComposer.Composition
import DefiComposer.Proofs.Maps

/-!
# Operations: what each change to a composition does

One statement per operation, in terms of the entries of the two maps and of the counters: what `Catalog.instantiate` makes
and takes from the counters, which entry `Composition.update` changes, which port a look-up finds, and when
`Composition.resolve` accepts two ports. Later proofs use these and do not open the operations again.
-/

namespace DefiComposer

/-! ## Fresh primitives -/

/-- The declaration that a port follows. -/
def Port.spec (port : Port) : PortSpec := ⟨port.resourceType, port.label⟩

/-- The ports of one side of a primitive follow declarations: they are the declared ones in order, and each names the
primitive and the side. -/
structure PortsFollow (owner : PrimitiveId) (direction : Direction) (specs : List PortSpec) (ports : List Port) : Prop where
  specs : ports.map Port.spec = specs
  owner : ∀ port ∈ ports, port.owner = owner
  direction : ∀ port ∈ ports, port.direction = direction

/-- A port follows one of the declarations that the ports of its side follow. -/
theorem PortsFollow.spec_mem {owner : PrimitiveId} {direction : Direction} {specs : List PortSpec} {ports : List Port}
    (h : PortsFollow owner direction specs ports) {port : Port} (hp : port ∈ ports) : port.spec ∈ specs := by
  rw [← h.specs]
  exact List.mem_map_of_mem hp

/-- A primitive follows its template: so do its input ports and its output ports. -/
structure Primitive.FollowsTemplate (p : Primitive) : Prop where
  inputs : PortsFollow p.id .input p.kind.template.inputs p.inputs
  outputs : PortsFollow p.id .output p.kind.template.outputs p.outputs

/-- How many ports a kind declares. -/
def Kind.portCount (kind : Kind) : Nat := kind.template.inputs.length + kind.template.outputs.length

namespace Catalog

/-- Ports are made as they are declared, in that order, with the owner they are made for. -/
theorem makePorts_follow (owner : PrimitiveId) (direction : Direction) (specs : List PortSpec) (ids : IdSupply) :
    PortsFollow owner direction specs (makePorts owner direction specs ids).1 := by
  induction specs generalizing ids with
  | nil => exact ⟨rfl, nofun, nofun⟩
  | cons spec specs ih =>
    obtain ⟨hs, ho, hd⟩ := ih ids.port.2
    refine ⟨?_, ?_, ?_⟩
    · simp only [makePorts, List.map_cons, hs]
      rfl
    · intro port hp
      rcases List.mem_cons.mp hp with rfl | hp
      · rfl
      · exact ho port hp
    · intro port hp
      rcases List.mem_cons.mp hp with rfl | hp
      · rfl
      · exact hd port hp

/-- The ports of a side get the next numbers, one after another. -/
theorem makePorts_ids (owner : PrimitiveId) (direction : Direction) (specs : List PortSpec) (ids : IdSupply) :
    (makePorts owner direction specs ids).1.map (·.id) = (List.range' ids.nextPort specs.length).map PortId.mk := by
  induction specs generalizing ids with
  | nil => rfl
  | cons spec specs ih =>
    simp only [makePorts, List.map_cons, List.length_cons, List.range'_succ, ih]
    rfl

/-- Making ports takes as many names as ports are declared. -/
theorem makePorts_supply (owner : PrimitiveId) (direction : Direction) (specs : List PortSpec) (ids : IdSupply) :
    (makePorts owner direction specs ids).2 = { ids with nextPort := ids.nextPort + specs.length } := by
  induction specs generalizing ids with
  | nil => rfl
  | cons spec specs ih =>
    simp only [makePorts, ih, List.length_cons, IdSupply.port, IdSupply.mk.injEq, true_and, and_true]
    omega

/-- What `instantiate` makes from the counters `ids`, and the counters `ids'` that it leaves. -/
structure Fresh (kind : Kind) (ids ids' : IdSupply) (p : Primitive) : Prop where
  named : p.id = ⟨ids.nextPrimitive⟩
  ofKind : p.kind = kind
  follows : p.FollowsTemplate
  ports : p.ports.map (·.id) = (List.range' ids.nextPort kind.portCount).map PortId.mk
  supply : ids' = ⟨ids.nextPrimitive + 1, ids.nextPort + kind.portCount, ids.nextConnection⟩

/-- The numbers of the ports of a fresh primitive lie between the counters before and after. -/
theorem Fresh.port_range {kind : Kind} {ids ids' : IdSupply} {p : Primitive} (h : Fresh kind ids ids' p) {port : Port}
    (hp : port ∈ p.ports) : ids.nextPort ≤ port.id.val ∧ port.id.val < ids.nextPort + kind.portCount := by
  have hm : port.id ∈ p.ports.map (·.id) := List.mem_map_of_mem hp
  rw [h.ports, List.mem_map] at hm
  obtain ⟨n, hn, hid⟩ := hm
  rw [← hid]
  exact List.mem_range'_1.mp hn

/-- A new primitive has the next names, and is as its template has it. -/
theorem instantiate_fresh (kind : Kind) (position : Position) (ids : IdSupply) :
    Fresh kind ids (instantiate kind position ids).2 (instantiate kind position ids).1 := by
  refine ⟨rfl, rfl, ⟨makePorts_follow _ _ _ _, makePorts_follow _ _ _ _⟩, ?_, ?_⟩
  · simp only [instantiate, Primitive.ports, makePorts_supply, IdSupply.primitive]
    rw [List.map_append, makePorts_ids, makePorts_ids, ← List.map_append, List.range'_append_1]
    rfl
  · simp only [instantiate, makePorts_supply, IdSupply.primitive, Kind.portCount, Nat.add_assoc]

end Catalog

namespace Composition

variable {c : Composition}

/-! ## Look-up of ports -/

/-- What is found among outputs is an output of some primitive. -/
theorem output?_some {id : PortId} {port : Port} (h : c.output? id = some port) :
    ∃ p ∈ c.primitives.values, port ∈ p.outputs ∧ port.id = id := by
  obtain ⟨p, hp, hf⟩ := List.exists_of_findSome?_eq_some h
  exact ⟨p, hp, List.mem_of_find?_eq_some hf, by simpa using List.find?_some hf⟩

theorem input?_some {id : PortId} {port : Port} (h : c.input? id = some port) :
    ∃ p ∈ c.primitives.values, port ∈ p.inputs ∧ port.id = id := by
  obtain ⟨p, hp, hf⟩ := List.exists_of_findSome?_eq_some h
  exact ⟨p, hp, List.mem_of_find?_eq_some hf, by simpa using List.find?_some hf⟩

/-- No connection is found between two ports exactly when none joins them. -/
theorem between?_eq_none_iff {source target : PortId} :
    c.between? source target = none ↔ ∀ k ∈ c.connections.values, (k.source, k.target) ≠ (source, target) := by
  simp [between?, List.find?_eq_none]

/-! ## Changing a primitive in its place -/

/-- An update changes the entry of the primitive it names, or finds none and changes nothing. -/
theorem update_cases (c : Composition) (now : Timestamp) (id : PrimitiveId) (change : Primitive → Primitive) :
    (c.update now id change).2 = c ∨
      ((c.update now id change).2.primitives.entries =
          c.primitives.entries.map fun e => (e.1, if e.1 = id then change e.2 else e.2)) ∧
        (c.update now id change).2.connections = c.connections ∧ (c.update now id change).2.ids = c.ids := by
  unfold update
  split
  · exact Or.inl rfl
  · rename_i p h
    exact Or.inr ⟨OrderedMap.entries_insert_of_get? h change, rfl, rfl⟩

/-- Changing a primitive keeps the connections. -/
theorem update_connections (c : Composition) (now : Timestamp) (id : PrimitiveId) (change : Primitive → Primitive) :
    (c.update now id change).2.connections = c.connections := by
  unfold update
  split <;> rfl

/-- An update of a primitive that is there answers the changed one and puts it in its place. -/
theorem update_of_found {id : PrimitiveId} {p : Primitive} (h : c.primitive? id = some p)
    (now : Timestamp) (change : Primitive → Primitive) :
    (c.update now id change).1 = .ok (change p) ∧ (c.update now id change).2.primitive? id = some (change p) := by
  simp only [update, h, true_and]
  exact OrderedMap.get?_insert_self _ _ _

/-- After an update a primitive is as it was, or the changed one that was found. -/
theorem mem_values_update {now : Timestamp} {id : PrimitiveId} {change : Primitive → Primitive} {q : Primitive}
    (h : q ∈ (c.update now id change).2.primitives.values) :
    q ∈ c.primitives.values ∨ ∃ p, c.primitive? id = some p ∧ q = change p := by
  unfold update at h
  split at h
  · exact Or.inl h
  · rename_i p hp
    rcases OrderedMap.mem_values_insert h with hq | hq
    · exact Or.inr ⟨p, hp, hq⟩
    · exact Or.inl hq

/-- Removing a primitive leaves the others. -/
theorem mem_values_removePrimitive {now : Timestamp} {id : PrimitiveId} {q : Primitive}
    (h : q ∈ (c.removePrimitive now id).2.primitives.values) : q ∈ c.primitives.values := by
  unfold removePrimitive at h
  split at h
  · exact h
  · exact ((OrderedMap.entries_erase_sublist c.primitives id).map Prod.snd).subset h

/-- Removing a primitive leaves connections that were there. -/
theorem mem_connections_removePrimitive {now : Timestamp} {id : PrimitiveId} {k : Connection}
    (h : k ∈ (c.removePrimitive now id).2.connections.values) : k ∈ c.connections.values := by
  unfold removePrimitive at h
  split at h
  · exact h
  · exact ((OrderedMap.filter_entries_sublist _ c.connections).map Prod.snd).subset h

/-- Removing a connection leaves connections that were there. -/
theorem mem_connections_removeConnection {now : Timestamp} {id : ConnectionId} {k : Connection}
    (h : k ∈ (c.removeConnection now id).2.connections.values) : k ∈ c.connections.values := by
  unfold removeConnection at h
  split at h
  · exact h
  · exact ((OrderedMap.entries_erase_sublist c.connections id).map Prod.snd).subset h

theorem removeConnection_primitives (now : Timestamp) (id : ConnectionId) :
    (c.removeConnection now id).2.primitives = c.primitives := by
  unfold removeConnection
  split <;> rfl

/-! ## Connecting two ports -/

/-- An attempt is accepted exactly when both ports are found on their sides, they belong to two primitives, no connection
joins them yet, and a tier accepts their tags. -/
theorem resolve_eq_ok_iff {source target : PortId} {r : Resolution} :
    c.resolve source target = .ok r ↔
      c.output? source = some r.source ∧ c.input? target = some r.target ∧ r.source.owner ≠ r.target.owner ∧
        c.between? source target = none ∧ compatibility r.source.resourceType r.target.resourceType = some r.tier := by
  obtain ⟨s, t, tier⟩ := r
  unfold resolve
  split
  · rename_i s' t' hs ht
    rw [hs, ht]
    split
    · rename_i ho
      simp only [reduceCtorEq, Option.some.injEq, false_iff]
      rintro ⟨rfl, rfl, hne, -⟩
      exact hne ho
    · rename_i ho
      split
      · rename_i hb
        simp [hb]
      · rename_i hb
        split
        · rename_i tier' hc
          simp only [Except.ok.injEq, Resolution.mk.injEq, hb, Option.some.injEq, true_and]
          constructor
          · rintro ⟨rfl, rfl, rfl⟩
            exact ⟨rfl, rfl, ho, hc⟩
          · rintro ⟨rfl, rfl, -, hc'⟩
            exact ⟨rfl, rfl, Option.some.inj (hc.symm.trans hc')⟩
        · rename_i hc
          simp only [reduceCtorEq, Option.some.injEq, false_iff]
          rintro ⟨rfl, rfl, -, -, hc'⟩
          rw [hc] at hc'
          cases hc'
  · rename_i h
    simp only [reduceCtorEq, false_iff]
    rintro ⟨hs, ht, -⟩
    exact h s t hs ht

/-- An attempt that is refused changes nothing. -/
theorem connect_of_error {now : Timestamp} {source target : PortId} {e : ConnectError}
    (h : c.resolve source target = .error e) : c.connect now source target = (.error e, c) := by
  simp [connect, h]

/-- A connection that is made takes the next number and the tag of its source, and goes to the end. -/
theorem connect_of_ok {now : Timestamp} {source target : PortId} {r : Resolution}
    (h : c.resolve source target = .ok r) :
    c.connect now source target =
      let k : Connection := ⟨⟨c.ids.nextConnection⟩, source, target, r.source.resourceType⟩
      (.ok k, { c with
        connections := c.connections.insert k.id k
        ids := { c.ids with nextConnection := c.ids.nextConnection + 1 }
        updatedAt := now }) := by
  obtain ⟨hs, ht, -⟩ := resolve_eq_ok_iff.mp h
  simp [connect, h, insertConnection, hs, ht, IdSupply.connection]

/-- Connecting keeps the primitives, whether it succeeds or not. -/
theorem connect_primitives (c : Composition) (now : Timestamp) (source target : PortId) :
    (c.connect now source target).2.primitives = c.primitives := by
  cases hr : c.resolve source target with
  | error e => rw [connect_of_error hr]
  | ok r => rw [connect_of_ok hr]

end Composition

end DefiComposer
