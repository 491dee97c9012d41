import DefiComposer.Proofs.Ports
import Mathlib.Data.List.Perm.Basic

/-!
# Removals: what goes with a primitive, and what stays

In whatever composition, a removal takes the primitive under a name and the connections at its ports, and leaves the rest in
its order; what it leaves does not have the name any more (`Composition.removePrimitive_of_found`). Without case distinctions:
one key is erased from the primitives, and the connections that are incident to it are filtered out. Both kinds of changes
commute, and what is incident to a primitive depends on this primitive only, so two removals leave the same in either order.
A fresh primitive has no connections: adding it and removing it again gives both maps back.
-/

namespace DefiComposer

/-- The connections that the answer to a removal names. -/
def Removal.taken (answer : Option Removal) : List Connection := answer.elim [] (·.connections)

/-- A connection touches a primitive that has one of its ends, on either side. -/
theorem Primitive.touches_iff {p : Primitive} {k : Connection} :
    p.touches k = true ↔ ∃ port ∈ p.ports, port.id = k.source ∨ port.id = k.target := by
  simp [touches, ownsPort, and_or_left, exists_or]

namespace Composition

/-- Whether a connection starts or ends at a port of the primitive under a name. -/
def isIncident (c : Composition) (id : PrimitiveId) (k : Connection) : Bool := (c.primitive? id).any (·.touches k)

variable {c : Composition} {now later : Timestamp} {id : PrimitiveId} {p : Primitive}

/-- The connections at a primitive, as a filter of all. -/
theorem incident_eq (c : Composition) (id : PrimitiveId) :
    c.incident id = c.connections.values.filter (c.isIncident id) := by
  unfold incident
  split
  · rename_i p hp
    exact List.filter_congr fun k _ => by simp [isIncident, hp]
  · rename_i hp
    refine (List.filter_eq_nil_iff.mpr fun k _ => ?_).symm
    simp [isIncident, hp]

/-- The connections that are incident to a primitive are those at its ports. -/
theorem mem_incident_iff (hp : c.primitive? id = some p) {k : Connection} :
    k ∈ c.incident id ↔ k ∈ c.connections.values ∧ ∃ port ∈ p.ports, port.id = k.source ∨ port.id = k.target := by
  simp [incident_eq, isIncident, hp, Primitive.touches_iff]

/-! ## One removal -/

/-- Without a primitive of the name a removal does nothing. -/
theorem removePrimitive_of_absent (h : c.primitive? id = none) : c.removePrimitive now id = (none, c) := by
  simp [removePrimitive, h]

/-- A removal takes the one primitive away. -/
theorem removePrimitive_primitives (c : Composition) (now : Timestamp) (id : PrimitiveId) :
    (c.removePrimitive now id).2.primitives = c.primitives.erase id := by
  unfold removePrimitive
  split
  · rename_i h
    exact (OrderedMap.erase_of_not_mem (OrderedMap.get?_eq_none_iff.mp h)).symm
  · rfl

/-- A removal takes exactly the connections at the primitive away. -/
theorem removePrimitive_connections (c : Composition) (now : Timestamp) (id : PrimitiveId) :
    (c.removePrimitive now id).2.connections = c.connections.filter fun k => !c.isIncident id k := by
  unfold removePrimitive
  split
  · rename_i h
    refine OrderedMap.ext_entries (List.filter_eq_self.mpr fun e _ => ?_).symm
    simp [isIncident, h]
  · rename_i p h
    simp [isIncident, h]

/-- A removal answers the connections that were incident. -/
theorem taken_removePrimitive (c : Composition) (now : Timestamp) (id : PrimitiveId) :
    Removal.taken (c.removePrimitive now id).1 = c.incident id := by
  unfold removePrimitive incident
  split <;> rename_i h <;> rw [h] <;> rfl

/-- A removal of a primitive that is there answers it with its connections, takes these from the two maps and nothing else,
and leaves nothing to remove under the name. -/
theorem removePrimitive_of_found (h : c.primitive? id = some p) (now later : Timestamp) :
    ∃ next, c.removePrimitive now id = (some ⟨p, c.incident id⟩, next) ∧
      next.primitives.entries = c.primitives.entries.filter (fun e => e.1 ≠ id) ∧
        next.connections.entries = c.connections.entries.filter (fun e => e.2 ∉ c.incident id) ∧
          next.removePrimitive later id = (none, next) := by
  have hanswer : (c.removePrimitive now id).1 = some ⟨p, c.incident id⟩ := by
    simp [removePrimitive, incident, h]
  refine ⟨(c.removePrimitive now id).2, Prod.ext hanswer rfl, ?_, ?_, ?_⟩
  · rw [removePrimitive_primitives, OrderedMap.entries_erase]
  · rw [removePrimitive_connections]
    refine List.filter_congr fun e he => ?_
    have hm := OrderedMap.mem_values_of_mem he
    simp [incident_eq, hm]
  · refine removePrimitive_of_absent ?_
    rw [primitive?, removePrimitive_primitives, OrderedMap.get?_erase_self]

/-! ## Two removals -/

variable {p q : PrimitiveId}

/-- What is incident to a primitive does not depend on another one. -/
theorem isIncident_removePrimitive (h : q ≠ p) (now : Timestamp) :
    (c.removePrimitive now p).2.isIncident q = c.isIncident q := by
  funext k
  rw [isIncident, primitive?, removePrimitive_primitives, OrderedMap.get?_erase_of_ne h]
  rfl

/-- Two removals, one after the other. -/
def removeBoth (c : Composition) (now later : Timestamp) (p q : PrimitiveId) : Composition :=
  ((c.removePrimitive now p).2.removePrimitive later q).2

/-- The connections that two removals answer, those of the first one first. -/
def takenByBoth (c : Composition) (now later : Timestamp) (p q : PrimitiveId) : List Connection :=
  Removal.taken (c.removePrimitive now p).1 ++ Removal.taken ((c.removePrimitive now p).2.removePrimitive later q).1

/-- After two removals both primitives are gone. -/
theorem removeBoth_primitives (c : Composition) (now later : Timestamp) (p q : PrimitiveId) :
    (c.removeBoth now later p q).primitives = (c.primitives.erase p).erase q := by
  rw [removeBoth, removePrimitive_primitives, removePrimitive_primitives]

theorem removeBoth_connections (h : q ≠ p) (now later : Timestamp) :
    (c.removeBoth now later p q).connections = c.connections.filter fun k => !c.isIncident p k && !c.isIncident q k := by
  refine OrderedMap.ext_entries ?_
  simp only [removeBoth, removePrimitive_connections, isIncident_removePrimitive h, OrderedMap.filter, List.filter_filter,
    Bool.and_comm]

/-- Two removals answer the connections that are incident to either primitive, each once. -/
theorem takenByBoth_perm (h : q ≠ p) (now later : Timestamp) :
    (c.takenByBoth now later p q).Perm (c.connections.values.filter fun k => c.isIncident p k || c.isIncident q k) := by
  have hsplit := List.filter_append_perm (c.isIncident p)
    (c.connections.values.filter fun k => c.isIncident p k || c.isIncident q k)
  have hfirst : ∀ k, (c.isIncident p k && (c.isIncident p k || c.isIncident q k)) = c.isIncident p k := by
    intro k
    cases c.isIncident p k <;> rfl
  have hrest : ∀ k, (!c.isIncident p k && (c.isIncident p k || c.isIncident q k)) =
      (c.isIncident q k && !c.isIncident p k) := by
    intro k
    cases c.isIncident p k <;> simp
  simpa only [takenByBoth, taken_removePrimitive, incident_eq, isIncident_removePrimitive h, removePrimitive_connections,
    OrderedMap.values_filter, List.filter_filter, hfirst, hrest] using hsplit

/-! ## A fresh primitive -/

namespace WellFormed

/-- No connection is at a port of a fresh primitive. -/
theorem touches_fresh (h : c.WellFormed) {kind : Kind} {ids : IdSupply} {p : Primitive} (hp : Catalog.Fresh kind c.ids ids p)
    {k : Connection} (hk : k ∈ c.connections.values) : p.touches k = false := by
  obtain ⟨a, ha, b, hb, source, hs, target, ht, hsource, htarget, -⟩ := h.joined k hk
  have hbelow : source.id.val < c.ids.nextPort ∧ target.id.val < c.ids.nextPort :=
    ⟨h.portsBelow _ (List.mem_flatMap.mpr ⟨a, ha, a.outputs_subset hs⟩),
      h.portsBelow _ (List.mem_flatMap.mpr ⟨b, hb, b.inputs_subset ht⟩)⟩
  rw [← Bool.not_eq_true, Primitive.touches_iff]
  rintro ⟨port, hport, hid⟩
  have hfresh := (hp.port_range hport).1
  rw [← hsource, ← htarget] at hid
  rcases hid with hid | hid <;> rw [hid] at hfresh <;> omega

/-- A fresh primitive that is removed again leaves both maps as they were. -/
theorem remove_addPrimitive (h : c.WellFormed) (now later : Timestamp) (kind : Kind) (position : Position) :
    let added := c.addPrimitive now kind position
    let back := (added.2.removePrimitive later added.1.id).2
    back.primitives = c.primitives ∧ back.connections = c.connections := by
  intro added back
  have hfresh := Catalog.instantiate_fresh kind position c.ids
  have hnew : added.1.id ∉ c.primitives.keys := h.fresh_id hfresh
  have hfound : added.2.primitive? added.1.id = some added.1 := OrderedMap.get?_insert_self _ _ _
  constructor
  · exact (removePrimitive_primitives _ _ _).trans (OrderedMap.erase_insert_of_not_mem hnew _)
  · refine (removePrimitive_connections _ _ _).trans (OrderedMap.ext_entries (List.filter_eq_self.mpr fun e he => ?_))
    have htouches : added.1.touches e.2 = false := h.touches_fresh hfresh (OrderedMap.mem_values_of_mem he)
    simp [isIncident, hfound, htouches]

end WellFormed

/-! ## Removals altogether -/

/-- A store removes what its composition does. -/
theorem removePrimitive_of_store (c : Composition) (options : Move.Options) (now : Timestamp) (id : PrimitiveId) :
    Store.removePrimitive ⟨c, options⟩ now id = ((c.removePrimitive now id).1, ⟨(c.removePrimitive now id).2, options⟩) := by
  cases hp : c.primitive? id with
  | none => simp [Store.removePrimitive, Store.commitRemoval, removePrimitive_of_absent hp]
  | some p =>
    obtain ⟨next, hremoved, -⟩ := removePrimitive_of_found hp now now
    simp [Store.removePrimitive, Store.commitRemoval, hremoved]

/-- In whatever composition, removing a primitive that is there answers it with the connections at its ports, in their order;
it takes its key and these connections, leaves all others in their order, and cannot be done twice. Two removals leave the
same in either order and answer the same connections together. Where the composition was made by edits, a primitive that is
added and removed leaves both maps as they were. A store removes what its composition does. -/
theorem removal_exact (c : Composition) (now later now' later' : Timestamp) :
    (∀ id p, c.primitive? id = some p →
      (c.incident id).Sublist c.connections.values ∧
        (∀ k, k ∈ c.incident id ↔
          k ∈ c.connections.values ∧ ∃ port ∈ p.ports, port.id = k.source ∨ port.id = k.target) ∧
        ∃ next, c.removePrimitive now id = (some ⟨p, c.incident id⟩, next) ∧
          next.primitives.entries = c.primitives.entries.filter (fun e => e.1 ≠ id) ∧
            next.connections.entries = c.connections.entries.filter (fun e => e.2 ∉ c.incident id) ∧
              next.removePrimitive later id = (none, next)) ∧
      (∀ p q, p ≠ q →
        (c.removeBoth now later p q).primitives = (c.removeBoth now' later' q p).primitives ∧
          (c.removeBoth now later p q).connections = (c.removeBoth now' later' q p).connections ∧
            (c.takenByBoth now later p q).Perm (c.takenByBoth now' later' q p)) ∧
      (c.Reachable → ∀ kind position,
        let added := c.addPrimitive now kind position
        let back := (added.2.removePrimitive later added.1.id).2
        back.primitives = c.primitives ∧ back.connections = c.connections) ∧
      ∀ options id, Store.removePrimitive ⟨c, options⟩ now id =
        ((c.removePrimitive now id).1, ⟨(c.removePrimitive now id).2, options⟩) := by
  refine ⟨fun id p hp => ⟨?_, fun k => mem_incident_iff hp, removePrimitive_of_found hp now later⟩,
    fun p q hne => ⟨?_, ?_, ?_⟩, fun h => h.wellFormed.remove_addPrimitive now later,
    fun options id => c.removePrimitive_of_store options now id⟩
  · rw [incident_eq]
    exact List.filter_sublist
  · rw [removeBoth_primitives, removeBoth_primitives, OrderedMap.erase_comm]
  · simp only [removeBoth_connections hne, removeBoth_connections hne.symm, Bool.and_comm]
  · refine (takenByBoth_perm hne.symm now later).trans (.trans ?_ (takenByBoth_perm hne now' later').symm)
    simp only [Bool.or_comm, List.Perm.refl]

/-- A lending pool feeds a vault, which feeds a staking pool. -/
def chain : Composition :=
  ((Store.new .zero .epoch "Chain" "").run
    [ (.epoch, .addPrimitive .lendingPool default), (.epoch, .addPrimitive .vault default),
      (.epoch, .addPrimitive .staking default), (.epoch, .connect ⟨2⟩ ⟨4⟩), (.epoch, .connect ⟨6⟩ ⟨7⟩) ]).composition

/-- The vault takes both connections with it if it goes first, and one of them if it goes after the lending pool. -/
theorem chain_removals :
    (∃ p, chain.primitive? ⟨1⟩ = some p ∧ ∃ next,
      chain.removePrimitive .epoch ⟨1⟩ =
        (some ⟨p, [⟨⟨0⟩, ⟨2⟩, ⟨4⟩, "asset"⟩, ⟨⟨1⟩, ⟨6⟩, ⟨7⟩, "asset"⟩]⟩, next) ∧
          next.removePrimitive .epoch ⟨1⟩ = (none, next)) ∧
      ((⟨0⟩ : PrimitiveId) ≠ ⟨1⟩ ∧
        (chain.removeBoth .epoch .epoch ⟨0⟩ ⟨1⟩).primitives = (chain.removeBoth .epoch .epoch ⟨1⟩ ⟨0⟩).primitives ∧
          (chain.takenByBoth .epoch .epoch ⟨0⟩ ⟨1⟩).Perm (chain.takenByBoth .epoch .epoch ⟨1⟩ ⟨0⟩)) ∧
      chain.Reachable ∧
        ((chain.addPrimitive .epoch .vault default).2.removePrimitive .epoch ⟨3⟩).2.connections = chain.connections := by
  have hreachable : chain.Reachable := ⟨_, _, _, _, _, rfl⟩
  obtain ⟨hone, htwo, hback, -⟩ := removal_exact chain .epoch .epoch .epoch .epoch
  have hne : (⟨0⟩ : PrimitiveId) ≠ ⟨1⟩ := by decide
  obtain ⟨p, hp⟩ : ∃ p, chain.primitive? ⟨1⟩ = some p := ⟨_, rfl⟩
  obtain ⟨-, -, next, hremoved, -, -, hagain⟩ := hone ⟨1⟩ p hp
  have hincident : chain.incident ⟨1⟩ = [⟨⟨0⟩, ⟨2⟩, ⟨4⟩, "asset"⟩, ⟨⟨1⟩, ⟨6⟩, ⟨7⟩, "asset"⟩] := by decide
  rw [hincident] at hremoved
  exact ⟨⟨p, hp, next, hremoved, hagain⟩, ⟨hne, (htwo _ _ hne).1, (htwo _ _ hne).2.2⟩, hreachable,
    (hback hreachable .vault default).2⟩

end Composition

end DefiComposer
