import DefiComposer.Move.Generation
import DefiComposer.Proofs.WiringOrder

/-!
# Releases: when every count is positive as it is lowered

A composition that is put together from parts may hold primitives of one name. The sweep keeps one count for a name, and it
may take the name from the queue as often as primitives have it. At every moment the count of a primitive is its in-degree
less the number of releases so far (`Sweep.Ledger`), so no moment is stuck exactly when none is fed more often than its
in-degree says (`Composition.releasesHeld_iff`), and exactly then there is an order, and a module with the wiring listed
(`Composition.exists_toModule?_iff`). Only a name that nothing feeds can be taken twice (`Composition.count_listed_le_one`), so
it is enough that no such name occurs twice, unless it feeds nothing (`Composition.releasesHeld_of_sources`).
-/

namespace DefiComposer

namespace Sweep

variable {g : WiringGraph} {order insertion : List PrimitiveId}

/-! ## The counts -/

/-- How often a primitive was fed so far: how many of those that are listed feed it. -/
def fed (g : WiringGraph) (listed : List PrimitiveId) (id : PrimitiveId) : Nat := listed.countP (g.hasEdge · id)

/-- The count of each primitive is its in-degree less what it was fed, releases to come not counted. -/
def Ledger (g : WiringGraph) (order : List PrimitiveId) (m : Sweep × List PrimitiveId) : Prop :=
  ∀ id ∈ order, ∃ n, m.1.counts.lookup id = some n ∧ n + fed g m.1.listed id = g.inDegree id + m.2.count id

/-- At the start the counts are the in-degrees. -/
theorem start_ledger (g : WiringGraph) (insertion : List PrimitiveId) :
    Ledger g insertion.eraseDups (start g insertion, []) := by
  intro id hid
  refine ⟨g.inDegree id, ?_, rfl⟩
  rw [start, lookup_map_self, if_pos hid]

/-- Each operation keeps the balance: what is taken is fed to those that wait for their release, and a release lowers the one
count. -/
theorem step_ledger (hn : order.Nodup) {m m' : Sweep × List PrimitiveId} (hs : Step g order m m') (h : Ledger g order m) :
    Ledger g order m' := by
  intro id hid
  obtain ⟨n, hlookup, hbalance⟩ := h id hid
  cases hs with
  | @take counts taken queue listed =>
    refine ⟨n, hlookup, ?_⟩
    have hfed : fed g (listed ++ [taken]) id = fed g listed id + if g.hasEdge taken id then 1 else 0 := by
      simp [fed, List.countP_append, List.countP_singleton]
    have hpending : (order.filter (g.hasEdge taken)).count id = if g.hasEdge taken id then 1 else 0 := by
      split
      · rename_i hedge
        exact List.count_eq_one_of_mem (hn.filter _) (List.mem_filter.mpr ⟨hid, hedge⟩)
      · rename_i hedge
        exact List.count_eq_zero.mpr fun hm => hedge (List.mem_filter.mp hm).2
    rw [hfed, hpending]
    simp only [List.count_nil] at hbalance
    omega
  | @release s released pending lowered =>
    by_cases hr : id = released
    · subst hr
      have hpositive : n ≠ 0 := fun hzero => lowered (hzero ▸ hlookup)
      refine ⟨n - 1, by simp [release, lookup_lower, hlookup], ?_⟩
      simp only [List.count_cons_self] at hbalance
      simp only [release]
      omega
    · refine ⟨n, by simp [release, lookup_lower, hlookup, hr], ?_⟩
      simp only [List.count_cons_of_ne (Ne.symm hr)] at hbalance
      exact hbalance

/-- What is listed stays listed. -/
theorem listed_prefix {m m' : Sweep × List PrimitiveId} (hs : Steps g order m m') : m.1.listed <+: m'.1.listed := by
  refine steps_induction (motive := fun n => m.1.listed <+: n.1.listed) hs (fun n n' hstep h => ?_) List.prefix_rfl
  cases hstep with
  | take => exact h.trans (List.prefix_append _ _)
  | release => exact h

/-- Only primitives of the insertion order are released. -/
theorem pending_subset {m m' : Sweep × List PrimitiveId} (hs : Steps g order m m') (h : m.2 ⊆ order) : m'.2 ⊆ order := by
  refine steps_induction (motive := fun n => n.2 ⊆ order) hs (fun n n' hstep h => ?_) h
  cases hstep with
  | take => exact List.filter_sublist.subset
  | release => exact List.Subset.trans (List.subset_cons_self _ _) h

/-- What feeds a primitive, each once, is no more than its in-degree. -/
theorem fed_le_inDegree {listed : List PrimitiveId} {id : PrimitiveId}
    (hn : (listed.filter (g.hasEdge · id)).Nodup) : fed g listed id ≤ g.inDegree id := by
  have hedges : ((listed.filter (g.hasEdge · id)).map (·, id)).Nodup := hn.map fun a b hab => (Prod.mk.inj hab).1
  have hsub : (listed.filter (g.hasEdge · id)).map (·, id) ⊆ g.edges.filter (·.2 = id) := by
    intro e he
    obtain ⟨a, ha, rfl⟩ := List.mem_map.mp he
    exact List.mem_filter.mpr ⟨WiringGraph.hasEdge_iff.mp (List.mem_filter.mp ha).2, by simp⟩
  have hlength := (hedges.subperm hsub).length_le
  rwa [List.length_map, ← List.countP_eq_length_filter, ← List.countP_eq_length_filter] at hlength

/-! ## How often a name is taken -/

/-- The insertion order, with each name that something feeds once only. -/
def onceFed (g : WiringGraph) (insertion : List PrimitiveId) : List PrimitiveId :=
  insertion.filter (fun id => g.inDegree id = 0) ++ (insertion.filter fun id => g.inDegree id ≠ 0).eraseDups

/-- A name that nothing feeds occurs as often as primitives have it. -/
theorem count_onceFed_of_source {id : PrimitiveId} (h : g.inDegree id = 0) :
    (onceFed g insertion).count id = insertion.count id := by
  have hnone : id ∉ (insertion.filter fun id => g.inDegree id ≠ 0).eraseDups := by simp [h]
  rw [onceFed, List.count_append, List.count_filter (by simpa using h), List.count_eq_zero.mpr hnone, Nat.add_zero]

/-- A name that something feeds occurs once. -/
theorem count_onceFed_of_fed {id : PrimitiveId} (h : g.inDegree id ≠ 0) (hm : id ∈ insertion) :
    (onceFed g insertion).count id = 1 := by
  have hnone : id ∉ insertion.filter fun id => g.inDegree id = 0 := by simp [h]
  have hone : id ∈ (insertion.filter fun id => g.inDegree id ≠ 0).eraseDups := by simp [h, hm]
  rw [onceFed, List.count_append, List.count_eq_zero.mpr hnone, Nat.zero_add,
    List.count_eq_one_of_mem (GraphAux.nodup_eraseDups _) hone]

/-- Before the sweep the queue has the names that nothing feeds, as often as primitives have them. -/
theorem start_tally_onceFed (g : WiringGraph) (insertion : List PrimitiveId) :
    Tally (onceFed g insertion) (start g insertion) := by
  intro id
  rw [count_start]
  split
  · rename_i h
    rw [count_onceFed_of_source h]
    exact ⟨Nat.le_refl _, fun hheld => absurd h (isHeld_start hheld).2⟩
  · rename_i h
    refine ⟨Nat.zero_le _, fun hheld => ?_⟩
    rw [count_onceFed_of_fed h (isHeld_start hheld).1]

end Sweep

namespace Composition

open Sweep

variable {c : Composition} {m : Sweep × List PrimitiveId} {options : Move.Options}

/-! ## When there is an order -/

/-- Whenever a count is lowered it is positive. -/
def ReleasesHeld (c : Composition) : Prop :=
  ∀ (s : Sweep) (id : PrimitiveId) (pending : List PrimitiveId), c.Moment (s, id :: pending) → s.isHeld id

/-- At every moment the counts are balanced. -/
theorem Moment.ledger (hm : c.Moment m) : Ledger c.wiring c.insertionOrder.eraseDups m :=
  steps_induction hm (fun _ _ hstep h => step_ledger (GraphAux.nodup_eraseDups _) hstep h) (start_ledger _ _)

/-- What is released has a count. -/
theorem Moment.lookup_pending {s : Sweep} {id : PrimitiveId} {pending : List PrimitiveId}
    (hm : c.Moment (s, id :: pending)) : id ∈ c.insertionOrder ∧ ∃ n, s.counts.lookup id = some n ∧
      n + fed c.wiring s.listed id = c.wiring.inDegree id + (pending.count id + 1) := by
  have hid : id ∈ c.insertionOrder.eraseDups := pending_subset hm (List.nil_subset _) List.mem_cons_self
  obtain ⟨n, hn, hbalance⟩ := hm.ledger id hid
  rw [List.count_cons_self] at hbalance
  exact ⟨List.mem_eraseDups.mp hid, n, hn, hbalance⟩

/-- Every count is positive as it is lowered exactly when no moment is stuck. -/
theorem releasesHeld_iff_not_stuck : c.ReleasesHeld ↔ ∀ m, c.Moment m → ¬ Stuck m := by
  constructor
  · rintro h m hm ⟨zero⟩
    obtain ⟨n, hn, hpositive⟩ := h _ _ _ hm
    rw [zero, Option.some.injEq] at hn
    omega
  · intro h s id pending hm
    obtain ⟨-, n, hn, -⟩ := hm.lookup_pending
    refine ⟨n, hn, Nat.pos_of_ne_zero ?_⟩
    rintro rfl
    exact h _ hm (.release hn)

/-- Every count is positive as it is lowered exactly when there is an order. -/
theorem releasesHeld_iff_exists_order : c.ReleasesHeld ↔ ∃ order, c.primitiveOrder? = some order := by
  rw [releasesHeld_iff_not_stuck, ← sweep?_isSome_iff]
  constructor
  · rintro ⟨s, hs⟩
    exact ⟨_, primitiveOrder?_eq_some_iff.mpr ⟨s, hs, rfl⟩⟩
  · rintro ⟨order, ho⟩
    obtain ⟨s, hs, -⟩ := primitiveOrder?_eq_some_iff.mp ho
    exact ⟨s, hs⟩

/-- No count is lowered from zero exactly when no primitive is fed more often than its in-degree says. -/
theorem releasesHeld_iff :
    c.ReleasesHeld ↔
      ∀ m, c.Moment m → ∀ id ∈ c.insertionOrder, fed c.wiring m.1.listed id ≤ c.wiring.inDegree id := by
  constructor
  · intro h m hm id hid
    obtain ⟨s, hs⟩ := sweep?_isSome_iff.mpr (releasesHeld_iff_not_stuck.mp h)
    obtain ⟨hend, hq⟩ := sweep?_eq_some hs
    -- at the end nothing is to be released, and no more is listed before
    obtain ⟨n, -, hbalance⟩ := hend.ledger id (List.mem_eraseDups.mpr hid)
    have hlater : m.1.listed <+: s.listed := listed_prefix (steps_to_end hm hend hq)
    have hfed : fed c.wiring m.1.listed id ≤ fed c.wiring s.listed id := hlater.sublist.countP_le
    simp only [List.count_nil] at hbalance
    omega
  · intro h s id pending hm
    obtain ⟨hid, n, hn, hbalance⟩ := hm.lookup_pending
    have hle : fed c.wiring s.listed id ≤ c.wiring.inDegree id := h _ hm id hid
    exact ⟨n, hn, by omega⟩

/-- At no moment is a name listed more than once, unless nothing feeds it and several primitives have it. -/
theorem count_listed_le_one (hm : c.Moment m) {id : PrimitiveId}
    (h : c.wiring.inDegree id = 0 → c.insertionOrder.count id ≤ 1) : m.1.listed.count id ≤ 1 := by
  have htally : Tally (onceFed c.wiring c.insertionOrder) m.1 :=
    steps_induction (motive := fun m => Tally (onceFed c.wiring c.insertionOrder) m.1) hm
      (fun _ _ hstep h => step_tally hstep h) (start_tally_onceFed _ _)
  have hlisted : m.1.listed.count id ≤ (onceFed c.wiring c.insertionOrder).count id :=
    ((List.sublist_append_left _ _).count_le id).trans (htally id).1
  by_cases hsource : c.wiring.inDegree id = 0
  · rw [count_onceFed_of_source hsource] at hlisted
    exact hlisted.trans (h hsource)
  · by_cases hid : id ∈ c.insertionOrder
    · rwa [count_onceFed_of_fed hsource hid] at hlisted
    · have hnone : id ∉ m.1.listed := fun hl =>
        hid ((tally_of_steps hm).subperm.subset (List.mem_append_left _ hl))
      rw [List.count_eq_zero.mpr hnone]
      exact Nat.zero_le _

/-- It is enough that no two primitives share a name that nothing feeds and that feeds some primitive. -/
theorem releasesHeld_of_sources
    (h : ∀ a ∈ c.insertionOrder, c.wiring.inDegree a = 0 → (∃ b ∈ c.insertionOrder, c.wiring.hasEdge a b = true) →
      c.insertionOrder.count a = 1) : c.ReleasesHeld := by
  refine releasesHeld_iff.mpr fun m hm id hid => fed_le_inDegree (List.nodup_iff_count_le_one.mpr fun a => ?_)
  by_cases hedge : a ∈ m.1.listed.filter (c.wiring.hasEdge · id)
  · obtain ⟨hlisted, hfeeds⟩ := List.mem_filter.mp hedge
    have ha : a ∈ c.insertionOrder := (tally_of_steps hm).subperm.subset (List.mem_append_left _ hlisted)
    have hone := count_listed_le_one hm fun hsource => Nat.le_of_eq (h a ha hsource ⟨id, hid, hfeeds⟩)
    exact (List.filter_sublist.count_le a).trans hone
  · rw [List.count_eq_zero.mpr hedge]
    exact Nat.zero_le _

/-- It is enough that no two primitives share a name. -/
theorem releasesHeld_of_nodup (h : c.insertionOrder.Nodup) : c.ReleasesHeld :=
  releasesHeld_of_sources fun _ ha _ _ => List.count_eq_one_of_mem h ha

/-! ## When there is a module -/

/-- There are lines exactly when there is an order. -/
theorem exists_wiringLines?_iff : (∃ lines, c.wiringLines? = some lines) ↔ c.ReleasesHeld := by
  simp only [releasesHeld_iff_exists_order, wiringLines?, Option.map_eq_some_iff]
  constructor
  · rintro ⟨-, order, ho, -⟩
    exact ⟨order, ho⟩
  · rintro ⟨order, ho⟩
    exact ⟨_, order, ho, rfl⟩

/-- A module is one with the lines of the wiring, or without lines where these are not to be listed. -/
theorem toModule?_eq_some_iff {module : MoveModule} : c.toModule? options = some module ↔
    ∃ lines, (if options.includeWiring then c.wiringLines? else some []) = some lines ∧
      c.moduleWith options.moduleAddress lines = module :=
  Option.map_eq_some_iff

/-- There is a module unless its wiring is to be listed and some count would be lowered from zero. -/
theorem exists_toModule?_iff :
    (∃ module, c.toModule? options = some module) ↔ (options.includeWiring = true → c.ReleasesHeld) := by
  simp only [toModule?_eq_some_iff]
  constructor
  · rintro ⟨-, lines, hlines, -⟩ hwiring
    rw [if_pos hwiring] at hlines
    exact exists_wiringLines?_iff.mp ⟨lines, hlines⟩
  · intro h
    by_cases hwiring : options.includeWiring = true
    · obtain ⟨lines, hlines⟩ := exists_wiringLines?_iff.mpr (h hwiring)
      exact ⟨_, lines, by rw [if_pos hwiring, hlines], rfl⟩
    · exact ⟨_, [], by rw [if_neg hwiring], rfl⟩

/-- There is a module where the wiring is not to be listed, and where no two primitives share a name. -/
theorem exists_toModule? (options : Move.Options) (h : options.includeWiring = false ∨ c.insertionOrder.Nodup) :
    ∃ module, c.toModule? options = some module := by
  refine exists_toModule?_iff.mpr fun hwiring => ?_
  rcases h with h | h
  · rw [hwiring] at h
    cases h
  · exact releasesHeld_of_nodup h

/-- There is a text exactly when there is a module. -/
theorem exists_generate?_iff :
    (∃ text, c.generate? options = some text) ↔ (options.includeWiring = true → c.ReleasesHeld) := by
  rw [← exists_toModule?_iff]
  constructor
  · rintro ⟨text, ht⟩
    obtain ⟨module, hm, -⟩ := Option.map_eq_some_iff.mp ht
    exact ⟨module, hm⟩
  · rintro ⟨module, hm⟩
    exact ⟨_, by rw [generate?, hm, Option.map_some]⟩

/-- When a composition has an order, a list of its wiring and a text with that list, whatever it is put together from: exactly
when every count of the sweep is positive as it is lowered, and so exactly when at no moment a primitive has been fed more
often than its in-degree says. It is enough that each name that feeds some primitive, and that nothing feeds, belongs to one
primitive only; so it is enough that no name occurs twice, whatever the keys, the owners that ports name, and the
connections. -/
theorem releases_exact (c : Composition) :
    ((∃ order, c.primitiveOrder? = some order) ↔ c.ReleasesHeld) ∧
      ((∃ lines, c.wiringLines? = some lines) ↔ c.ReleasesHeld) ∧
      (∀ address, (∃ text, c.generate? ⟨address, true⟩ = some text) ↔ c.ReleasesHeld) ∧
      (c.ReleasesHeld ↔
        ∀ m, c.Moment m → ∀ id ∈ c.insertionOrder, fed c.wiring m.1.listed id ≤ c.wiring.inDegree id) ∧
      ((∀ a ∈ c.insertionOrder, c.wiring.inDegree a = 0 → (∃ b ∈ c.insertionOrder, c.wiring.hasEdge a b = true) →
        c.insertionOrder.count a = 1) → c.ReleasesHeld) := by
  refine ⟨releasesHeld_iff_exists_order.symm, exists_wiringLines?_iff, fun address => ?_, releasesHeld_iff,
    releasesHeld_of_sources⟩
  rw [exists_generate?_iff]
  exact forall_prop_of_true rfl

/-! ## Two primitives of one name -/

/-- A vault of a name with ports for assets. -/
def vault (name : Nat) (inputs outputs : List Nat) : Primitive :=
  let port (direction : Direction) (id : Nat) : Port := ⟨⟨id⟩, ⟨name⟩, direction, "asset", ""⟩
  ⟨⟨name⟩, .vault, default, "", "", ∅, inputs.map (port .input), outputs.map (port .output)⟩

/-- Primitives under the numbers from zero up, and connections between ports. -/
def assembled (primitives : List Primitive) (links : List (Nat × Nat)) : Composition :=
  { Composition.new .zero .epoch "Twins" "" with
    primitives := .ofList (primitives.mapIdx fun i p => (⟨i⟩, p))
    connections := .ofList (links.mapIdx fun i link => (⟨i⟩, ⟨⟨i⟩, ⟨link.1⟩, ⟨link.2⟩, "asset"⟩)) }

/-- Two primitives have one name, which is fed and feeds another one. -/
def fedTwins : Composition :=
  assembled [vault 0 [] [10], vault 2 [20] [21], vault 2 [] [], vault 3 [30] []] [(10, 20), (21, 30)]

/-- The name that they share is taken once, and there is an order. -/
theorem fedTwins_ordered :
    fedTwins.insertionOrder.count ⟨2⟩ = 2 ∧ fedTwins.wiring.hasEdge ⟨2⟩ ⟨3⟩ = true ∧ fedTwins.ReleasesHeld ∧
      ∃ order, fedTwins.primitiveOrder? = some order := by
  obtain ⟨horder, -, -, -, hsources⟩ := releases_exact fedTwins
  have hheld : fedTwins.ReleasesHeld := hsources (by decide)
  exact ⟨by decide, by decide, hheld, horder.mpr hheld⟩

/-- Two primitives have one name, which feeds two more and which nothing feeds. The sweep takes it twice. -/
def twins : Composition :=
  assembled [vault 0 [] [10], vault 0 [] [], vault 2 [20] [], vault 3 [30] [31], vault 4 [40] [41]]
    [(10, 20), (41, 20), (10, 30), (31, 40)]

/-- The second time there is a count of zero to lower, and the generation fails. -/
theorem twins_lower_zero :
    ¬ twins.ReleasesHeld ∧ twins.primitiveOrder? = none ∧ ∀ address, twins.generate? ⟨address, true⟩ = none := by
  have hsweep : twins.sweep? = none := by decide +kernel
  have horder : twins.primitiveOrder? = none := by rw [primitiveOrder?, hsweep, Option.map_none]
  refine ⟨fun hheld => ?_, horder, fun address => ?_⟩
  · obtain ⟨order, ho⟩ := releasesHeld_iff_exists_order.mp hheld
    rw [horder] at ho
    cases ho
  · rw [generate?, toModule?, if_pos rfl, wiringLines?, horder]
    rfl

end Composition

end DefiComposer
