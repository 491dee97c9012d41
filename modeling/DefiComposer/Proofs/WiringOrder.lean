import DefiComposer.Proofs.Graphs
import DefiComposer.Proofs.Sweep
import Mathlib.Data.List.Count
import Mathlib.Data.List.Infix
import Mathlib.Data.List.Nodup

/-!
# The order of the primitives

At every moment of a sweep the counts are those of the edges that remain: the edges from primitives not yet listed, and
those from the last one listed to the primitives still to be released (`Sweep.remaining`, `Sweep.Inv.counts`). From this
follows the rest of the invariant: a primitive waits or is listed exactly when no remaining edge leads to it, it comes
after all that feed it, and its count is positive when it is released, so that no moment is stuck and there is an order. A
sweep that leaves a primitive out leaves a set in which each is fed by another, which is a cycle; and where all are listed,
positions grow along edges, so that there is none. Together: `primitiveOrder_correct`.
-/

namespace DefiComposer

namespace Sweep

variable {g : WiringGraph} {insertion : List PrimitiveId}

/-- The edges that still count at a moment of a sweep. -/
def remaining (g : WiringGraph) (m : Sweep × List PrimitiveId) : List (PrimitiveId × PrimitiveId) :=
  g.edges.filter fun e => e.1 ∉ m.1.listed ∨ m.1.listed.getLast? = some e.1 ∧ e.2 ∈ m.2

/-- How many of the edges that still count lead to a primitive. -/
def remainingDegree (g : WiringGraph) (m : Sweep × List PrimitiveId) (id : PrimitiveId) : Nat :=
  (remaining g m).countP (·.2 = id)

theorem mem_remaining {m : Sweep × List PrimitiveId} {e : PrimitiveId × PrimitiveId} :
    e ∈ remaining g m ↔ e ∈ g.edges ∧ (e.1 ∉ m.1.listed ∨ m.1.listed.getLast? = some e.1 ∧ e.2 ∈ m.2) := by
  simp [remaining]

/-- A primitive is free exactly when no edge that still counts leads to it. -/
theorem remainingDegree_eq_zero_iff {m : Sweep × List PrimitiveId} {id : PrimitiveId} :
    remainingDegree g m id = 0 ↔ ∀ e ∈ remaining g m, e.2 ≠ id := by
  simp [remainingDegree, List.countP_eq_zero]

/-- What a graph and the insertion order of its primitives have in common: no primitive and no edge twice, and edges
between the primitives only. -/
structure Fits (g : WiringGraph) (insertion : List PrimitiveId) : Prop where
  primitives : insertion.Nodup
  edges : g.edges.Nodup
  closed : ∀ e ∈ g.edges, e.1 ∈ insertion ∧ e.2 ∈ insertion

/-- What holds at every moment of a sweep. -/
structure Inv (g : WiringGraph) (insertion : List PrimitiveId) (m : Sweep × List PrimitiveId) : Prop where
  tally : Tally insertion m.1
  /-- The counts are those of the edges that remain. -/
  counts : m.1.counts = insertion.map fun id => (id, remainingDegree g m id)
  /-- A primitive waits or is listed exactly when no edge that remains leads to it. -/
  free : ∀ id, id ∈ m.1.listed ++ m.1.queue ↔ id ∈ insertion ∧ remainingDegree g m id = 0
  /-- What is still to be released is fed by the last primitive listed. -/
  pending : m.2.Nodup ∧ ∀ b ∈ m.2, ∃ a, m.1.listed.getLast? = some a ∧ (a, b) ∈ g.edges
  /-- What is listed comes after all that feed it. -/
  sorted : ∀ e ∈ g.edges, e.2 ∈ m.1.listed → e.1 ∈ m.1.listed ∧ m.1.listed.idxOf e.1 < m.1.listed.idxOf e.2
  /-- The primitives that nothing feeds come first. -/
  sources : insertion.filter (fun id => g.inDegree id = 0) <+: m.1.listed ++ m.1.queue

namespace Inv

variable {m : Sweep × List PrimitiveId}

/-- No primitive is listed twice, waits twice, or waits after it was listed. -/
theorem nodup (h : Inv g insertion m) (hf : Fits g insertion) : (m.1.listed ++ m.1.queue).Nodup := by
  rw [List.nodup_iff_count_le_one]
  intro id
  exact Nat.le_trans (h.tally id).1 (List.nodup_iff_count_le_one.mp hf.primitives id)

end Inv

/-! ## The start -/

/-- Before the sweep all edges count. -/
theorem remainingDegree_start (g : WiringGraph) (insertion : List PrimitiveId) (id : PrimitiveId) :
    remainingDegree g (start g insertion, []) id = g.inDegree id := by
  simp [remainingDegree, remaining, start, WiringGraph.inDegree]

/-- The invariant holds before the sweep. -/
theorem start_inv (hf : Fits g insertion) : Inv g insertion (start g insertion, []) where
  tally := start_tally g insertion
  counts := by
    simp only [remainingDegree_start]
    simp only [start, GraphAux.eraseDups_eq_self hf.primitives]
  free := by
    intro id
    rw [remainingDegree_start]
    simp [start]
  pending := ⟨List.nodup_nil, nofun⟩
  sorted := nofun
  sources := by
    simp [start]

/-! ## Taking a primitive from the queue -/

section Take

variable {counts : List (PrimitiveId × Nat)} {id : PrimitiveId} {queue listed : List PrimitiveId}

/-- A primitive that waits was not listed before. -/
theorem not_mem_listed (hf : Fits g insertion) (h : Inv g insertion (⟨counts, id :: queue, listed⟩, [])) :
    id ∉ listed := by
  have hn := h.nodup hf
  rw [List.nodup_append] at hn
  exact fun hm => hn.2.2 id hm id (by simp) rfl

/-- The edges from the primitive that is taken still count until what they lead to is released. -/
theorem remaining_take (hf : Fits g insertion) (h : Inv g insertion (⟨counts, id :: queue, listed⟩, [])) :
    remaining g (⟨counts, queue, listed ++ [id]⟩, insertion.filter (g.hasEdge id)) =
      remaining g (⟨counts, id :: queue, listed⟩, []) := by
  have hid := not_mem_listed hf h
  refine List.filter_congr fun e he => ?_
  rw [decide_eq_decide]
  simp only [List.mem_append, List.mem_singleton, not_or, List.getLast?_concat, Option.some.injEq, List.mem_filter,
    List.not_mem_nil, and_false, or_false]
  constructor
  · rintro (⟨h1, -⟩ | ⟨h1, -⟩)
    · exact h1
    · exact h1 ▸ hid
  · intro h1
    by_cases h2 : e.1 = id
    · exact Or.inr ⟨h2.symm, (hf.closed e he).2, WiringGraph.hasEdge_iff.mpr (h2 ▸ he)⟩
    · exact Or.inl ⟨h1, h2⟩

/-- Taking a primitive from the queue keeps the invariant: its edges count until what they lead to is released. -/
theorem take_inv (hf : Fits g insertion) (h : Inv g insertion (⟨counts, id :: queue, listed⟩, [])) :
    Inv g insertion (⟨counts, queue, listed ++ [id]⟩, insertion.filter (g.hasEdge id)) := by
  have hr := remaining_take hf h
  have hd : ∀ b, remainingDegree g (⟨counts, queue, listed ++ [id]⟩, insertion.filter (g.hasEdge id)) b =
      remainingDegree g (⟨counts, id :: queue, listed⟩, []) b := fun b => by rw [remainingDegree, hr]; rfl
  have happ : (listed ++ [id]) ++ queue = listed ++ id :: queue := by simp
  have hfree := (h.free id).mp (by simp)
  refine ⟨step_tally .take h.tally, ?_, ?_, ?_, ?_, ?_⟩
  · simp only [hd]
    exact h.counts
  · intro b
    rw [hd, happ]
    exact h.free b
  · refine ⟨hf.primitives.filter _, fun b hb => ⟨id, by simp, ?_⟩⟩
    exact WiringGraph.hasEdge_iff.mp (List.mem_filter.mp hb).2
  · intro e he hm
    rw [List.mem_append, List.mem_singleton] at hm
    rcases hm with hm | hm
    · obtain ⟨h1, h2⟩ := h.sorted e he hm
      refine ⟨List.mem_append_left _ h1, ?_⟩
      rw [List.idxOf_append_of_mem h1, List.idxOf_append_of_mem hm]
      exact h2
    · -- no edge that remains leads to the primitive taken, so all that feed it are listed
      have h1 : e.1 ∈ listed := by
        by_contra hne
        refine remainingDegree_eq_zero_iff.mp hfree.2 e ?_ hm
        exact mem_remaining.mpr ⟨he, Or.inl hne⟩
      refine ⟨List.mem_append_left _ h1, ?_⟩
      rw [hm, List.idxOf_append_of_mem h1, List.idxOf_append_of_notMem (not_mem_listed hf h)]
      exact Nat.lt_add_right _ (List.idxOf_lt_length_of_mem h1)
  · show _ <+: (listed ++ [id]) ++ queue
    rw [happ]
    exact h.sources

end Take

/-! ## Releasing a primitive -/

section Release

variable {s : Sweep} {id : PrimitiveId} {pending : List PrimitiveId}

/-- The edge that a release stands for: from the last primitive listed to the one released. -/
theorem exists_released_edge (h : Inv g insertion (s, id :: pending)) :
    ∃ a, s.listed.getLast? = some a ∧ (a, id) ∈ remaining g (s, id :: pending) ∧
      remaining g (s.release id, pending) = (remaining g (s, id :: pending)).filter (· != (a, id)) := by
  obtain ⟨hn, hp⟩ := h.pending
  obtain ⟨a, ha, he⟩ := hp id (by simp)
  refine ⟨a, ha, mem_remaining.mpr ⟨he, Or.inr ⟨ha, by simp⟩⟩, ?_⟩
  have hid : id ∉ pending := (List.nodup_cons.mp hn).1
  have hal : a ∈ s.listed := List.mem_of_getLast? ha
  rw [remaining, remaining, List.filter_filter]
  refine List.filter_congr fun e _ => ?_
  rw [Bool.eq_iff_iff]
  simp only [decide_eq_true_eq, Bool.and_eq_true, bne_iff_ne, release, ha, Option.some.injEq, List.mem_cons]
  constructor
  · rintro (h1 | ⟨h1, h2⟩)
    · exact ⟨fun heq => h1 (heq ▸ hal), Or.inl h1⟩
    · refine ⟨?_, Or.inr ⟨h1, Or.inr h2⟩⟩
      rintro rfl
      exact hid h2
  · rintro ⟨hne, h1 | ⟨h1, h2 | h2⟩⟩
    · exact Or.inl h1
    · exact absurd (Prod.ext h1.symm h2) hne
    · exact Or.inr ⟨h1, h2⟩

/-- Only primitives of the insertion order are released. -/
theorem released_mem (hf : Fits g insertion) (h : Inv g insertion (s, id :: pending)) : id ∈ insertion := by
  obtain ⟨a, -, hm, -⟩ := exists_released_edge h
  exact (hf.closed _ (mem_remaining.mp hm).1).2

/-- A release lowers the degree of the primitive released by one, and no other. -/
theorem remainingDegree_release (hf : Fits g insertion) (h : Inv g insertion (s, id :: pending)) (b : PrimitiveId) :
    remainingDegree g (s, id :: pending) b =
      remainingDegree g (s.release id, pending) b + if b = id then 1 else 0 := by
  obtain ⟨a, -, hm, hr⟩ := exists_released_edge h
  have hn : (remaining g (s, id :: pending)).Nodup := hf.edges.filter _
  rw [remainingDegree, remainingDegree, hr, ← hn.erase_eq_filter, (List.perm_cons_erase hm).countP_eq,
    List.countP_cons]
  simp [eq_comm]

/-- The count of a primitive that is released is positive. -/
theorem lookup_released (hf : Fits g insertion) (h : Inv g insertion (s, id :: pending)) :
    ∃ n, s.counts.lookup id = some (n + 1) ∧ remainingDegree g (s.release id, pending) id = n := by
  have hd := remainingDegree_release hf h id
  refine ⟨_, ?_, rfl⟩
  rw [h.counts, lookup_map_self, if_pos (released_mem hf h), hd]
  simp

/-- Lowering a count in a list that holds one for each of some primitives. -/
theorem lower_map_self {f f' : PrimitiveId → Nat} {l : List PrimitiveId} (hl : l.Nodup)
    (h : ∀ b ∈ l, f b = f' b + if b = id then 1 else 0) :
    lower id (l.map fun b => (b, f b)) = l.map fun b => (b, f' b) := by
  induction l with
  | nil => rfl
  | cons b l ih =>
    rw [List.nodup_cons] at hl
    have hb := h b (by simp)
    have hrest : ∀ x ∈ l, f x = f' x + if x = id then 1 else 0 := fun x hx => h x (List.mem_cons_of_mem _ hx)
    by_cases hbi : b = id
    · subst hbi
      have hsame : l.map (fun x => (x, f x)) = l.map fun x => (x, f' x) := by
        refine List.map_congr_left fun x hx => ?_
        have hx' := hrest x hx
        have hne : x ≠ b := fun heq => hl.1 (heq ▸ hx)
        simp only [hne, if_false, Nat.add_zero] at hx'
        rw [hx']
      simp only [if_true] at hb
      simp [lower, hb, hsame]
    · simp only [hbi, if_false, Nat.add_zero] at hb
      simp [lower, hbi, hb, ih hl.2 hrest]

/-- A release keeps the invariant: it takes one edge out of the count, and what is free then waits. -/
theorem release_inv (hf : Fits g insertion) (h : Inv g insertion (s, id :: pending)) :
    Inv g insertion (s.release id, pending) := by
  have hdeg := remainingDegree_release hf h
  obtain ⟨n, hn, hdn⟩ := lookup_released hf h
  have hone : s.counts.lookup id = some 1 ↔ n = 0 := by
    rw [hn, Option.some.injEq]
    omega
  have hqueue : (s.release id).queue = if n = 0 then s.queue ++ [id] else s.queue := by
    simp only [release, hone]
  have hmem := released_mem hf h
  refine ⟨release_tally h.tally, ?_, ?_, ?_, h.sorted, ?_⟩
  · show lower id s.counts = _
    rw [h.counts]
    exact lower_map_self hf.primitives fun b _ => hdeg b
  · intro b
    have hb := h.free b
    rw [hdeg b] at hb
    show b ∈ s.listed ++ (s.release id).queue ↔ _
    rw [hqueue]
    by_cases hbi : b = id
    · -- it was not free before, and now it is free exactly when it waits
      subst hbi
      rw [hdn]
      simp only [if_true, Nat.add_eq_zero_iff, Nat.one_ne_zero, and_false, iff_false] at hb
      split
      · rename_i h0
        simp [h0, hmem]
      · rename_i h0
        simp [h0, hb]
    · simp only [hbi, if_false, Nat.add_zero] at hb
      rw [← hb]
      split
      · simp [hbi]
      · rfl
  · exact ⟨(List.nodup_cons.mp h.pending.1).2, fun b hb => h.pending.2 b (List.mem_cons_of_mem _ hb)⟩
  · refine h.sources.trans ?_
    show s.listed ++ s.queue <+: s.listed ++ (s.release id).queue
    rw [hqueue]
    split
    · simp
    · exact List.prefix_rfl

end Release

/-! ## All moments of a sweep -/

/-- Each operation keeps the invariant. -/
theorem step_inv {m m' : Sweep × List PrimitiveId} (hf : Fits g insertion) (hs : Step g insertion m m')
    (h : Inv g insertion m) : Inv g insertion m' := by
  cases hs with
  | take => exact take_inv hf h
  | release => exact release_inv hf h

/-- Each moment of a sweep is as the invariant says. -/
theorem steps_inv {m : Sweep × List PrimitiveId} (hf : Fits g insertion)
    (hs : Steps g insertion (start g insertion, []) m) : Inv g insertion m :=
  steps_induction hs (fun _ _ hstep h => step_inv hf hstep h) (start_inv hf)

/-- No moment is stuck: the count of a primitive that is released is positive. -/
theorem Inv.not_stuck {m : Sweep × List PrimitiveId} (hf : Fits g insertion) (h : Inv g insertion m) : ¬ Stuck m := by
  rintro ⟨zero⟩
  obtain ⟨n, hn, -⟩ := lookup_released hf h
  rw [hn] at zero
  cases zero

/-! ## The end -/

/-- Where all primitives are listed, positions grow along edges, and no edges lead back. -/
theorem not_cyclic_of_complete {m : Sweep × List PrimitiveId} (hf : Fits g insertion) (h : Inv g insertion m)
    (hall : ∀ id ∈ insertion, id ∈ m.1.listed) : ¬ g.Cyclic := by
  rintro ⟨a, ha⟩
  have hlt : ∀ b, Relation.TransGen g.Feeds a b → m.1.listed.idxOf a < m.1.listed.idxOf b := by
    intro b hb
    induction hb with
    | single he => exact (h.sorted _ he (hall _ (hf.closed _ he).2)).2
    | tail _ he ih => exact Nat.lt_trans ih (h.sorted _ he (hall _ (hf.closed _ he).2)).2
  exact Nat.lt_irrefl _ (hlt a ha)

/-- Where a sweep ends without listing all primitives, those left out feed each other in a cycle. -/
theorem cyclic_of_incomplete {s : Sweep} (hf : Fits g insertion) (h : Inv g insertion (s, [])) (hq : s.queue = [])
    {id : PrimitiveId} (hid : id ∈ insertion) (hout : id ∉ s.listed) : g.Cyclic := by
  have hne : insertion.filter (· ∉ s.listed) ≠ [] :=
    List.ne_nil_of_mem (List.mem_filter.mpr ⟨hid, by simpa using hout⟩)
  refine WiringGraph.cyclic_of_fed hne fun b hb => ?_
  rw [List.mem_filter, decide_eq_true_eq] at hb
  have hdeg : ¬ remainingDegree g (s, []) b = 0 := by
    intro h0
    have hm := (h.free b).mpr ⟨hb.1, h0⟩
    rw [hq, List.append_nil] at hm
    exact hb.2 hm
  rw [remainingDegree_eq_zero_iff, not_forall₂] at hdeg
  obtain ⟨e, he, hb'⟩ := hdeg
  obtain rfl := not_not.mp hb'
  obtain ⟨hedge, hrem⟩ := mem_remaining.mp he
  have hsource : e.1 ∉ s.listed := by
    rcases hrem with hrem | ⟨-, hrem⟩
    · exact hrem
    · cases hrem
  exact ⟨e.1, List.mem_filter.mpr ⟨(hf.closed e hedge).1, by simpa using hsource⟩, hedge⟩

end Sweep

/-! ## The order of a composition -/

namespace Composition

variable {c : Composition} {m : Sweep × List PrimitiveId} {s : Sweep} {order : List PrimitiveId}

/-- Where the primitives stand under their own names, the insertion order is that of the keys. -/
theorem insertionOrder_eq_keys (hnamed : ∀ e ∈ c.primitives.entries, e.2.id = e.1) :
    c.insertionOrder = c.primitives.keys :=
  OrderedMap.map_name_values hnamed

/-- Where the primitives stand under their own names, no two share one. -/
theorem insertionOrder_nodup (hnamed : ∀ e ∈ c.primitives.entries, e.2.id = e.1) : c.insertionOrder.Nodup := by
  rw [insertionOrder_eq_keys hnamed]
  exact c.primitives.distinct

/-- The wiring of a composition whose primitives stand under their own names, and whose ports belong to them, fits the
insertion order. -/
theorem wiring_fits (hnamed : ∀ e ∈ c.primitives.entries, e.2.id = e.1)
    (howned : ∀ p ∈ c.primitives.values, ∀ port ∈ p.ports, port.owner ∈ c.primitives.keys) :
    Sweep.Fits c.wiring c.insertionOrder where
  primitives := insertionOrder_nodup hnamed
  edges := c.wiring_edges_nodup
  closed := by
    rw [insertionOrder_eq_keys hnamed]
    exact fun e he => wiring_closed howned he

/-- Where the wiring fits, the invariant holds at every moment of the sweep. -/
theorem Moment.inv (hm : c.Moment m) (hf : Sweep.Fits c.wiring c.insertionOrder) :
    Sweep.Inv c.wiring c.insertionOrder m := by
  rw [Moment, GraphAux.eraseDups_eq_self hf.primitives] at hm
  exact Sweep.steps_inv hf hm

/-- Where the wiring fits, the sweep has a result. -/
theorem exists_sweep? (hf : Sweep.Fits c.wiring c.insertionOrder) : ∃ s, c.sweep? = some s :=
  sweep?_isSome_iff.mpr fun _ hm => (hm.inv hf).not_stuck hf

/-- Where the wiring fits, there is an order. -/
theorem exists_primitiveOrder? (hf : Sweep.Fits c.wiring c.insertionOrder) : ∃ order, c.primitiveOrder? = some order := by
  obtain ⟨s, hs⟩ := exists_sweep? hf
  exact ⟨_, primitiveOrder?_eq_some_iff.mpr ⟨s, hs, rfl⟩⟩

/-- The sweep lists every primitive exactly when the wiring has no cycle. -/
theorem listed_complete_iff (hf : Sweep.Fits c.wiring c.insertionOrder) (hs : c.sweep? = some s) :
    s.listed.length = c.insertionOrder.length ↔ ¬ c.wiring.Cyclic := by
  obtain ⟨hm, hq⟩ := sweep?_eq_some hs
  have hinv := hm.inv hf
  constructor
  · intro hlen
    have hperm := (listed_subperm hs).perm_of_length_le (Nat.le_of_eq hlen.symm)
    exact Sweep.not_cyclic_of_complete hf hinv fun id hid => hperm.mem_iff.mpr hid
  · intro hc
    have hsub : c.insertionOrder ⊆ s.listed := by
      intro id hid
      by_contra hout
      exact hc (Sweep.cyclic_of_incomplete hf hinv hq hid hout)
    exact Nat.le_antisymm (listed_subperm hs).length_le (hf.primitives.subperm hsub).length_le

/-- Without a cycle the order is what the sweep lists. -/
theorem sweep?_of_acyclic (hf : Sweep.Fits c.wiring c.insertionOrder) (hc : ¬ c.wiring.Cyclic)
    (ho : c.primitiveOrder? = some order) : ∃ s, c.sweep? = some s ∧ s.listed = order := by
  obtain ⟨s, hs, rfl⟩ := primitiveOrder?_eq_some_iff.mp ho
  exact ⟨s, hs, (if_pos ((listed_complete_iff hf hs).mpr hc)).symm⟩

/-- With a cycle the order is that of insertion. -/
theorem order_of_cyclic (hf : Sweep.Fits c.wiring c.insertionOrder) (hc : c.wiring.Cyclic)
    (ho : c.primitiveOrder? = some order) : order = c.insertionOrder := by
  obtain ⟨s, hs, rfl⟩ := primitiveOrder?_eq_some_iff.mp ho
  exact if_neg fun hlen => (listed_complete_iff hf hs).mp hlen hc

/-- Without a cycle each primitive comes before those that it feeds. -/
theorem order_sorted (hf : Sweep.Fits c.wiring c.insertionOrder) (hc : ¬ c.wiring.Cyclic)
    (ho : c.primitiveOrder? = some order) {a b : PrimitiveId} (h : c.wiring.Feeds a b) :
    order.idxOf a < order.idxOf b := by
  have hb : b ∈ order := (primitiveOrder?_perm ho).mem_iff.mpr (hf.closed _ h).2
  obtain ⟨s, hs, rfl⟩ := sweep?_of_acyclic hf hc ho
  have hinv := (sweep?_eq_some hs).1.inv hf
  exact (hinv.sorted _ h hb).2

/-- Without a cycle the primitives that nothing feeds come first, as they were added. -/
theorem order_sources (hf : Sweep.Fits c.wiring c.insertionOrder) (hc : ¬ c.wiring.Cyclic)
    (ho : c.primitiveOrder? = some order) :
    c.insertionOrder.filter (fun id => c.wiring.inDegree id = 0) <+: order := by
  obtain ⟨s, hs, rfl⟩ := sweep?_of_acyclic hf hc ho
  obtain ⟨hm, hq⟩ := sweep?_eq_some hs
  have h := (hm.inv hf).sources
  rwa [hq, List.append_nil] at h

/-- The order of the primitives, where these stand under their own names and the owners that ports name are there, whatever
the connections. There is one, and it is a permutation of the primitives. Without a cycle in the wiring each primitive comes
before those it feeds, and those that nothing feeds come first, as they were added; with a cycle the order is that of
insertion. The sweep runs until no primitive waits; at none of its moments has a primitive been taken from the queue twice,
and each count is positive when it is lowered. -/
theorem primitiveOrder_correct (c : Composition) (hnamed : ∀ e ∈ c.primitives.entries, e.2.id = e.1)
    (howned : ∀ p ∈ c.primitives.values, ∀ port ∈ p.ports, port.owner ∈ c.primitives.keys) :
    ∃ order s, c.primitiveOrder? = some order ∧ c.sweep? = some s ∧
      order.Perm c.primitives.keys ∧
      (¬ c.wiring.Cyclic →
        (∀ a b, c.wiring.Feeds a b → order.idxOf a < order.idxOf b) ∧
        c.insertionOrder.filter (fun id => c.wiring.inDegree id = 0) <+: order) ∧
      (c.wiring.Cyclic → order = c.insertionOrder) ∧
      (c.Moment (s, []) ∧ s.queue = []) ∧
      (∀ m, c.Moment m → m.1.listed.Nodup ∧
        ∀ id pending, m.2 = id :: pending → ∃ n, m.1.counts.lookup id = some n ∧ 0 < n) := by
  have hf := wiring_fits hnamed howned
  obtain ⟨s, hs⟩ := exists_sweep? hf
  obtain ⟨order, ho⟩ := exists_primitiveOrder? hf
  refine ⟨order, s, ho, hs, ?_, ?_, fun hc => order_of_cyclic hf hc ho, sweep?_eq_some hs, ?_⟩
  · rw [← insertionOrder_eq_keys hnamed]
    exact primitiveOrder?_perm ho
  · intro hc
    exact ⟨fun a b => order_sorted hf hc ho, order_sources hf hc ho⟩
  · intro m hm
    have hinv := hm.inv hf
    refine ⟨(List.nodup_append.mp (hinv.nodup hf)).1, ?_⟩
    rintro id pending hp
    obtain ⟨s, todo⟩ := m
    subst hp
    obtain ⟨n, hn, -⟩ := Sweep.lookup_released hf hinv
    exact ⟨n + 1, hn, Nat.succ_pos n⟩

/-- A vault, a lending pool and a staking pool, with the loans of the pool going into the vault. -/
def loansIntoVault : Composition :=
  let c := Composition.new .zero .epoch "Order" ""
  let c := (c.addPrimitive .epoch .vault default).2
  let c := (c.addPrimitive .epoch .lendingPool default).2
  let c := (c.addPrimitive .epoch .staking default).2
  (c.insertConnection .epoch ⟨5⟩ ⟨0⟩ "asset").2

theorem loansIntoVault_edges : loansIntoVault.wiring.edges = [(⟨1⟩, ⟨0⟩)] := by decide

/-- Nothing feeds the pool, so there is no cycle. -/
theorem loansIntoVault_acyclic : ¬ loansIntoVault.wiring.Cyclic :=
  WiringGraph.not_cyclic_of_rank (fun id => if id = ⟨1⟩ then 0 else 1) (by decide)

/-- The lending pool was added after the vault, and comes before it. -/
theorem loansIntoVault_order :
    (∀ e ∈ loansIntoVault.primitives.entries, e.2.id = e.1) ∧
    (∀ p ∈ loansIntoVault.primitives.values, ∀ port ∈ p.ports, port.owner ∈ loansIntoVault.primitives.keys) ∧
    ∃ order, loansIntoVault.primitiveOrder? = some order ∧ order.idxOf ⟨1⟩ < order.idxOf ⟨0⟩ := by
  have hnamed : ∀ e ∈ loansIntoVault.primitives.entries, e.2.id = e.1 := by decide
  have howned : ∀ p ∈ loansIntoVault.primitives.values, ∀ port ∈ p.ports,
      port.owner ∈ loansIntoVault.primitives.keys := by decide
  obtain ⟨order, -, ho, -, -, hacyclic, -⟩ := primitiveOrder_correct loansIntoVault hnamed howned
  have hfeeds : loansIntoVault.wiring.Feeds ⟨1⟩ ⟨0⟩ := by simp [WiringGraph.Feeds, loansIntoVault_edges]
  exact ⟨hnamed, howned, order, ho, (hacyclic loansIntoVault_acyclic).1 _ _ hfeeds⟩

end Composition

end DefiComposer
