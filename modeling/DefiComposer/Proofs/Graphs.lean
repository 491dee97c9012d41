import DefiComposer.Wiring
import DefiComposer.Proofs.Operations
import Mathlib.Logic.Relation
import Mathlib.Order.WellFoundedSet

/-!
# Wiring graphs: edges, cycles and what the ports say

No edge of a wiring graph is listed twice, and the edges join primitives that ports name as their owners. A graph has a
cycle when a primitive feeds itself through some edges; in a finite set of primitives each of which is fed by another one of
the set there is a cycle (`WiringGraph.cyclic_of_fed`), and where every edge goes up in some ranking there is none
(`WiringGraph.not_cyclic_of_rank`).
-/

namespace DefiComposer

/-! ## Lists without repetitions -/

namespace GraphAux

variable {α : Type} [BEq α] [LawfulBEq α]

/-- Without repetitions no element is left twice. -/
theorem nodup_eraseDups (l : List α) : l.eraseDups.Nodup := by
  cases l with
  | nil => exact List.nodup_nil
  | cons a l =>
    rw [List.eraseDups_cons, List.nodup_cons, List.mem_eraseDups]
    exact ⟨by simp, nodup_eraseDups _⟩
termination_by l.length
decreasing_by
  exact Nat.lt_succ_of_le (List.length_filter_le _ _)

/-- Where there are no repetitions, none is removed. -/
theorem eraseDups_eq_self {l : List α} (h : l.Nodup) : l.eraseDups = l := by
  induction l with
  | nil => rfl
  | cons a l ih =>
    rw [List.nodup_cons] at h
    have hf : (l.filter fun b => !b == a) = l := by
      rw [List.filter_eq_self]
      intro b hb
      simpa using fun hba : b = a => h.1 (hba ▸ hb)
    rw [List.eraseDups_cons, hf, ih h.2]

end GraphAux

/-! ## Edges and cycles -/

namespace WiringGraph

/-- One primitive feeds another. -/
def Feeds (g : WiringGraph) (a b : PrimitiveId) : Prop := (a, b) ∈ g.edges

/-- Some primitive feeds itself, through one edge or several. -/
def Cyclic (g : WiringGraph) : Prop := ∃ a, Relation.TransGen g.Feeds a a

variable {g : WiringGraph}

theorem hasEdge_iff {a b : PrimitiveId} : g.hasEdge a b = true ↔ (a, b) ∈ g.edges := by simp [hasEdge]

/-- Primitives each of which is fed by another one of them form a cycle somewhere. -/
theorem cyclic_of_fed {l : List PrimitiveId} (hne : l ≠ []) (h : ∀ b ∈ l, ∃ a ∈ l, g.Feeds a b) : g.Cyclic := by
  by_contra hc
  have : IsTrans PrimitiveId (Relation.TransGen g.Feeds) := ⟨fun _ _ _ => Relation.TransGen.trans⟩
  have : Std.Irrefl (Relation.TransGen g.Feeds) := ⟨fun a ha => hc ⟨a, ha⟩⟩
  have : IsStrictOrder PrimitiveId (Relation.TransGen g.Feeds) := {}
  -- without a cycle the relation is a strict order, and a finite set has an element that nothing in it comes before
  have hw : {b | b ∈ l}.WellFoundedOn (Relation.TransGen g.Feeds) := (List.finite_toSet l).wellFoundedOn
  obtain ⟨b, hb⟩ := List.exists_mem_of_ne_nil l hne
  have hmin := WellFounded.has_min hw (Set.univ : Set {b // b ∈ {b | b ∈ l}}) ⟨⟨b, hb⟩, trivial⟩
  obtain ⟨⟨m, hm⟩, -, hmin⟩ := hmin
  obtain ⟨a, ha, hf⟩ := h m hm
  exact hmin ⟨a, ha⟩ trivial (.single hf)

/-- There is no cycle where the primitives can be ranked such that every edge goes up. -/
theorem not_cyclic_of_rank (rank : PrimitiveId → Nat) (h : ∀ e ∈ g.edges, rank e.1 < rank e.2) : ¬ g.Cyclic := by
  rintro ⟨a, ha⟩
  have hup : Relation.TransGen (· < ·) (rank a) (rank a) := ha.lift rank fun a b hab => h (a, b) hab
  rw [Relation.transGen_eq_self] at hup
  exact Nat.lt_irrefl _ hup

end WiringGraph

namespace Composition

variable {c : Composition}

/-! ## The wiring of a composition -/

/-- No edge is in the wiring twice, however many connections make it. -/
theorem wiring_edges_nodup (c : Composition) : c.wiring.edges.Nodup := GraphAux.nodup_eraseDups _

/-- The owner of a port is named by some port of that name. -/
theorem portOwner?_some {id : PortId} {owner : PrimitiveId} (h : c.portOwner? id = some owner) :
    ∃ p ∈ c.primitives.values, ∃ port ∈ p.ports, port.id = id ∧ port.owner = owner := by
  obtain ⟨port, hp, rfl⟩ := Option.map_eq_some_iff.mp h
  obtain ⟨p, hm, hf⟩ := List.exists_of_findSome?_eq_some hp
  exact ⟨p, hm, port, List.mem_of_find?_eq_some hf, by simpa using List.find?_some hf, rfl⟩

/-- There is an edge exactly where some connection joins a port of the one owner to a port of the other. -/
theorem mem_wiring_edges {a b : PrimitiveId} :
    (a, b) ∈ c.wiring.edges ↔
      ∃ k ∈ c.connections.values, c.portOwner? k.source = some a ∧ c.portOwner? k.target = some b := by
  simp only [wiring, List.mem_eraseDups, List.mem_filterMap, joinedOwners?]
  constructor
  · rintro ⟨k, hk, h⟩
    split at h
    · rename_i a' b' ha hb
      obtain ⟨rfl, rfl⟩ := Prod.mk.inj (Option.some.inj h)
      exact ⟨k, hk, ha, hb⟩
    · cases h
  · rintro ⟨k, hk, ha, hb⟩
    exact ⟨k, hk, by simp [ha, hb]⟩

/-- Where the ports name primitives that are there as their owners, the edges join such primitives. -/
theorem wiring_closed (h : ∀ p ∈ c.primitives.values, ∀ port ∈ p.ports, port.owner ∈ c.primitives.keys)
    {e : PrimitiveId × PrimitiveId} (he : e ∈ c.wiring.edges) : e.1 ∈ c.primitives.keys ∧ e.2 ∈ c.primitives.keys := by
  obtain ⟨k, -, ha, hb⟩ := mem_wiring_edges.mp he
  obtain ⟨p, hp, port, hport, -, hpa⟩ := portOwner?_some ha
  obtain ⟨q, hq, port', hport', -, hqb⟩ := portOwner?_some hb
  exact ⟨hpa ▸ h p hp port hport, hqb ▸ h q hq port' hport'⟩

end Composition

end DefiComposer
