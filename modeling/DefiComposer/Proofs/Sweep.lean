import DefiComposer.Wiring
import Mathlib.Data.List.Perm.Basic
import Mathlib.Logic.Relation

/-!
# Sweeps, step by step

`Sweep.Step` takes a sweep apart into single operations: taking a primitive from the queue, and releasing one of those that
it feeds. A moment of a sweep is a state together with the primitives that are still to be released. A moment is stuck when
the next release would lower a count of zero; no operation leads on from there. Operations are determined by the moment
(`step_rightUnique`), so there are two ways for a sweep to go: `Sweep.run?` answers a state, and then operations lead to it
and nothing waits (`run?_eq_some`); or it fails, and then they lead to a stuck moment (`run?_eq_none`). So a sweep has a result
exactly when none of its moments is stuck (`run?_isSome_iff`), and what each operation keeps holds at every moment
(`steps_induction`).

The first such fact needs nothing of the graph: a primitive is listed at most as often as it stands in the insertion order
(`Sweep.Tally`). So where there is an order of the primitives of a composition, it is a permutation of the insertion order.
-/

namespace DefiComposer

namespace Sweep

/-- One operation of a sweep, from moment to moment. -/
inductive Step (g : WiringGraph) (insertion : List PrimitiveId) :
    Sweep × List PrimitiveId → Sweep × List PrimitiveId → Prop where
  | take {counts : List (PrimitiveId × Nat)} {id : PrimitiveId} {queue listed : List PrimitiveId} :
      Step g insertion (⟨counts, id :: queue, listed⟩, [])
        (⟨counts, queue, listed ++ [id]⟩, insertion.filter (g.hasEdge id))
  | release {s : Sweep} {id : PrimitiveId} {pending : List PrimitiveId} (lowered : s.counts.lookup id ≠ some 0) :
      Step g insertion (s, id :: pending) (s.release id, pending)

/-- Any number of operations. -/
abbrev Steps (g : WiringGraph) (insertion : List PrimitiveId) :
    Sweep × List PrimitiveId → Sweep × List PrimitiveId → Prop :=
  Relation.ReflTransGen (Step g insertion)

/-- A moment at which a count of zero would have to be lowered. -/
inductive Stuck : Sweep × List PrimitiveId → Prop where
  | release {s : Sweep} {id : PrimitiveId} {pending : List PrimitiveId} (zero : s.counts.lookup id = some 0) :
      Stuck (s, id :: pending)

variable {g : WiringGraph} {insertion : List PrimitiveId} {m m' : Sweep × List PrimitiveId} {s s' : Sweep}

/-! ## Operations -/

/-- A moment has one next moment at most. -/
theorem step_rightUnique : Relator.RightUnique (Step g insertion) := by
  intro m m' m'' h h'
  cases h with
  | take => cases h'; rfl
  | release => cases h'; rfl

/-- No operation leads on from a stuck moment. -/
theorem Stuck.not_step (h : Stuck m) : ¬ Step g insertion m m' := by
  rintro (_ | lowered)
  · cases h
  · cases h with
    | release zero => exact lowered zero

/-- No operation leads on from the end of a sweep. -/
theorem not_step_of_end (hq : s.queue = []) : ¬ Step g insertion (s, []) m := by
  rintro ⟨⟩
  cases hq

/-- Where no operation leads on, the steps are over. -/
theorem eq_of_steps (h : ∀ n, ¬ Step g insertion m n) (hs : Steps g insertion m m') : m = m' := by
  rcases Relation.ReflTransGen.cases_head hs with rfl | ⟨n, hn, -⟩
  · rfl
  · exact absurd hn (h n)

/-- From every moment the steps go on to the end. -/
theorem steps_to_end {start : Sweep × List PrimitiveId} (h : Steps g insertion start m)
    (hend : Steps g insertion start (s, [])) (hq : s.queue = []) : Steps g insertion m (s, []) := by
  rcases Relation.ReflTransGen.total_of_right_unique step_rightUnique h hend with h | h
  · exact h
  · rw [← eq_of_steps (fun _ => not_step_of_end hq) h]

/-- What the start of a run has and each operation keeps, every moment of the run has. -/
theorem steps_induction {motive : Sweep × List PrimitiveId → Prop} (hs : Steps g insertion m m')
    (h : ∀ n n', Step g insertion n n' → motive n → motive n') (hm : motive m) : motive m' := by
  induction hs with
  | refl => exact hm
  | tail _ hstep ih => exact h _ _ hstep ih

/-! ## Runs as sequences of operations -/

/-- Releases that all succeed are operations, one for each. -/
theorem releaseAll?_eq_some {pending : List PrimitiveId} (h : s.releaseAll? pending = some s') :
    Steps g insertion (s, pending) (s', []) := by
  induction pending generalizing s with
  | nil =>
    cases h
    exact .refl
  | cons id pending ih =>
    obtain ⟨next, hnext, hrest⟩ := Option.bind_eq_some_iff.mp h
    obtain ⟨hlowered, rfl⟩ := release?_eq_some_iff.mp hnext
    exact .head (.release hlowered) (ih hrest)

/-- Releases of which one fails come to a stuck moment. -/
theorem releaseAll?_eq_none (g : WiringGraph) (insertion : List PrimitiveId) {pending : List PrimitiveId}
    (h : s.releaseAll? pending = none) :
    ∃ m, Steps g insertion (s, pending) m ∧ Stuck m := by
  induction pending generalizing s with
  | nil => cases h
  | cons id pending ih =>
    by_cases hzero : s.counts.lookup id = some 0
    · exact ⟨_, .refl, .release hzero⟩
    · have hnext : s.release? id = some (s.release id) := release?_eq_some_iff.mpr ⟨hzero, rfl⟩
      rw [releaseAll?, List.foldlM_cons, hnext] at h
      obtain ⟨m, hm, hstuck⟩ := ih h
      exact ⟨m, .head (.release hzero) hm, hstuck⟩

/-- Taking the first primitive from the queue, with all that it feeds released. -/
def next? (g : WiringGraph) (insertion : List PrimitiveId) (s : Sweep) (id : PrimitiveId) (queue : List PrimitiveId) :
    Option Sweep :=
  (⟨s.counts, queue, s.listed ++ [id]⟩ : Sweep).releaseAll? (insertion.filter (g.hasEdge id))

/-- A run ends when no primitive waits. -/
theorem run?_of_nil (h : s.queue = []) : run? g insertion s = some s := by
  rw [run?]
  split
  · rfl
  · rename_i h'
    rw [h] at h'
    cases h'

/-- A run takes the first primitive that waits, and goes on if all releases succeed. -/
theorem run?_of_cons {id : PrimitiveId} {queue : List PrimitiveId} (h : s.queue = id :: queue) :
    run? g insertion s = (next? g insertion s id queue).bind (run? g insertion) := by
  rw [run?]
  split
  · rename_i h'
    rw [h] at h'
    cases h'
  · rename_i id' queue' h'
    rw [h] at h'
    obtain ⟨rfl, rfl⟩ := List.cons.inj h'
    split <;> rename_i hnext <;> rw [next?, hnext] <;> rfl

/-- A primitive that is taken from the queue does not wait again. -/
theorem bound_next? {id : PrimitiveId} {queue : List PrimitiveId} (h : s.queue = id :: queue)
    (hnext : next? g insertion s id queue = some s') : s'.bound < s.bound := by
  refine Nat.lt_of_le_of_lt (bound_releaseAll? hnext) ?_
  simp [bound, h]

/-- Induction along a run: over the states in which no primitive waits, and back from the next state if there is one. -/
theorem run_induction (g : WiringGraph) (insertion : List PrimitiveId) {motive : Sweep → Prop}
    (nil : ∀ s, s.queue = [] → motive s)
    (cons : ∀ s id queue, s.queue = id :: queue → (∀ s', next? g insertion s id queue = some s' → motive s') → motive s)
    (s : Sweep) : motive s := by
  induction hn : s.bound using Nat.strongRecOn generalizing s with
  | ind n ih =>
    cases hq : s.queue with
    | nil => exact nil s hq
    | cons id queue => exact cons s id queue hq fun s' hnext => ih _ (hn ▸ bound_next? hq hnext) s' rfl

/-- Taking a primitive from the queue is the first operation of its turn. -/
theorem take_step {id : PrimitiveId} {queue : List PrimitiveId} (h : s.queue = id :: queue) :
    Step g insertion (s, []) (⟨s.counts, queue, s.listed ++ [id]⟩, insertion.filter (g.hasEdge id)) := by
  obtain ⟨counts, queue', listed⟩ := s
  subst h
  exact .take

/-- A run with a result is a sequence of operations that ends with it, when nothing waits. -/
theorem run?_eq_some (h : run? g insertion s = some s') : Steps g insertion (s, []) (s', []) ∧ s'.queue = [] := by
  induction s using run_induction g insertion with
  | nil s hq =>
    rw [run?_of_nil hq] at h
    cases h
    exact ⟨.refl, hq⟩
  | cons s id queue hq ih =>
    rw [run?_of_cons hq] at h
    obtain ⟨next, hnext, hrest⟩ := Option.bind_eq_some_iff.mp h
    obtain ⟨hsteps, hend⟩ := ih next hnext hrest
    exact ⟨.head (take_step hq) ((releaseAll?_eq_some hnext).trans hsteps), hend⟩

/-- A run without a result is a sequence of operations that comes to a stuck moment. -/
theorem run?_eq_none (h : run? g insertion s = none) : ∃ m, Steps g insertion (s, []) m ∧ Stuck m := by
  induction s using run_induction g insertion with
  | nil s hq =>
    rw [run?_of_nil hq] at h
    cases h
  | cons s id queue hq ih =>
    rw [run?_of_cons hq] at h
    cases hnext : next? g insertion s id queue with
    | none =>
      obtain ⟨m, hsteps, hstuck⟩ := releaseAll?_eq_none g insertion hnext
      exact ⟨m, .head (take_step hq) hsteps, hstuck⟩
    | some next =>
      rw [hnext] at h
      obtain ⟨m, hsteps, hstuck⟩ := ih next hnext h
      exact ⟨m, .head (take_step hq) ((releaseAll?_eq_some hnext).trans hsteps), hstuck⟩

/-- A run has a result exactly when none of its moments is stuck. -/
theorem run?_isSome_iff :
    (∃ s', run? g insertion s = some s') ↔ ∀ m, Steps g insertion (s, []) m → ¬ Stuck m := by
  constructor
  · rintro ⟨s', h⟩ m hm hstuck
    obtain ⟨hsteps, hq⟩ := run?_eq_some h
    -- the steps from the stuck moment to the end are none, and the end is not stuck
    cases eq_of_steps (fun _ => hstuck.not_step) (steps_to_end hm hsteps hq)
    cases hstuck
  · intro h
    cases hr : run? g insertion s with
    | some s' => exact ⟨s', rfl⟩
    | none =>
      obtain ⟨m, hm, hstuck⟩ := run?_eq_none hr
      exact absurd hstuck (h m hm)

/-! ## Counts -/

/-- Lowering one count changes it alone. -/
theorem lookup_lower (id other : PrimitiveId) (counts : List (PrimitiveId × Nat)) :
    (lower id counts).lookup other =
      if other = id then (counts.lookup other).map (· - 1) else counts.lookup other := by
  induction counts with
  | nil => simp [lower]
  | cons entry rest ih =>
    obtain ⟨key, n⟩ := entry
    by_cases hk : key = id
    · subst hk
      by_cases ho : other = key
      · simp [lower, ho]
      · have ho' : (other == key) = false := by simpa using ho
        simp [lower, ho, List.lookup_cons, ho']
    · simp only [lower, hk, if_false, List.lookup_cons, ih]
      by_cases ho : other = key
      · subst ho
        simp [hk]
      · have ho' : (other == key) = false := by simpa using ho
        simp [ho']

/-- The count of a primitive in a list that holds one for each of some primitives. -/
theorem lookup_map_self (f : PrimitiveId → Nat) (l : List PrimitiveId) (id : PrimitiveId) :
    (l.map fun i => (i, f i)).lookup id = if id ∈ l then some (f id) else none := by
  induction l with
  | nil => simp
  | cons i l ih =>
    by_cases h : id = i
    · simp [h]
    · have h' : (id == i) = false := by simpa using h
      simp [List.lookup_cons, h', ih, h]

/-! ## How often a primitive is listed -/

/-- Whether the count of a primitive is positive. -/
def isHeld (s : Sweep) (id : PrimitiveId) : Prop := ∃ n, s.counts.lookup id = some n ∧ 0 < n

/-- A primitive was listed and waits, together, at most as often as it stands in the insertion order, and one time less
while its count is positive. -/
def Tally (insertion : List PrimitiveId) (s : Sweep) : Prop :=
  ∀ id, (s.listed ++ s.queue).count id ≤ insertion.count id ∧
    (s.isHeld id → (s.listed ++ s.queue).count id + 1 ≤ insertion.count id)

/-- At the start the primitives wait that nothing feeds. -/
theorem count_start (g : WiringGraph) (insertion : List PrimitiveId) (id : PrimitiveId) :
    ((start g insertion).listed ++ (start g insertion).queue).count id =
      if g.inDegree id = 0 then insertion.count id else 0 := by
  simp only [start, List.nil_append]
  split
  · rename_i h
    exact List.count_filter (by simpa using h)
  · rename_i h
    rw [List.count_eq_zero]
    intro hm
    exact h (by simpa using (List.mem_filter.mp hm).2)

/-- At the start the primitives are held that something feeds. -/
theorem isHeld_start {id : PrimitiveId} (h : (start g insertion).isHeld id) : id ∈ insertion ∧ g.inDegree id ≠ 0 := by
  obtain ⟨n, hn, hpos⟩ := h
  rw [start, lookup_map_self] at hn
  split at hn
  · rename_i hm
    refine ⟨List.mem_eraseDups.mp hm, ?_⟩
    have hn' := Option.some.inj hn
    omega
  · cases hn

/-- Before the sweep no primitive waits more often than it occurs, and those that are held do not wait. -/
theorem start_tally (g : WiringGraph) (insertion : List PrimitiveId) : Tally insertion (start g insertion) := by
  intro id
  rw [count_start]
  split
  · rename_i h
    exact ⟨Nat.le_refl _, fun hheld => absurd h (isHeld_start hheld).2⟩
  · exact ⟨Nat.zero_le _, fun hheld => List.one_le_count_iff.mpr (isHeld_start hheld).1⟩

/-- A primitive other than the released one is held as before. -/
theorem isHeld_release_of_ne {s : Sweep} {id other : PrimitiveId} (h : other ≠ id) :
    (s.release id).isHeld other ↔ s.isHeld other := by
  simp [isHeld, release, lookup_lower, h]

/-- Releasing a primitive lets it wait when its count was one; then it is held no more. -/
theorem release_tally {insertion : List PrimitiveId} {s : Sweep} {id : PrimitiveId} (h : Tally insertion s) :
    Tally insertion (s.release id) := by
  intro other
  obtain ⟨hle, hheld⟩ := h other
  by_cases ho : other = id
  · subst ho
    by_cases hone : s.counts.lookup other = some 1
    · have hcount : ((s.release other).listed ++ (s.release other).queue).count other =
          (s.listed ++ s.queue).count other + 1 := by
        simp only [release, hone, if_true, ← List.append_assoc]
        rw [List.count_append]
        simp
      rw [hcount]
      refine ⟨hheld ⟨1, hone, by omega⟩, ?_⟩
      rintro ⟨n, hn, hpos⟩
      simp only [release, lookup_lower, if_true, hone, Option.map_some, Option.some.injEq] at hn
      omega
    · have hsame : (s.release other).listed ++ (s.release other).queue = s.listed ++ s.queue := by
        simp [release, hone]
      rw [hsame]
      refine ⟨hle, ?_⟩
      rintro ⟨n, hn, hpos⟩
      simp only [release, lookup_lower, if_true, Option.map_eq_some_iff] at hn
      obtain ⟨m, hm, hmn⟩ := hn
      exact hheld ⟨m, hm, by omega⟩
  · have hcount : ((s.release id).listed ++ (s.release id).queue).count other = (s.listed ++ s.queue).count other := by
      simp only [release]
      split
      · rw [← List.append_assoc, List.count_append, List.count_singleton]
        simp [Ne.symm ho]
      · rfl
    rw [hcount, isHeld_release_of_ne ho]
    exact ⟨hle, hheld⟩

/-- Each operation keeps the tally. -/
theorem step_tally {order insertion : List PrimitiveId} (hs : Step g order m m') (h : Tally insertion m.1) :
    Tally insertion m'.1 := by
  cases hs with
  | take =>
    intro id
    have := h id
    simpa [isHeld] using this
  | release => exact release_tally h

/-- At every moment of a run the tally holds. -/
theorem tally_of_steps {order insertion pending : List PrimitiveId}
    (hs : Steps g order (start g insertion, pending) m) : Tally insertion m.1 :=
  steps_induction hs (fun _ _ hstep h => step_tally hstep h) (start_tally g insertion)

/-- No primitive is listed more often than it stands in the insertion order. -/
theorem Tally.subperm {insertion : List PrimitiveId} {s : Sweep} (h : Tally insertion s) :
    (s.listed ++ s.queue).Subperm insertion :=
  List.subperm_ext_iff.mpr fun id _ => (h id).1

end Sweep

/-! ## The order of a composition -/

namespace Composition

variable {c : Composition} {s : Sweep} {order : List PrimitiveId}

/-- The moments of the sweep over the wiring. -/
def Moment (c : Composition) (m : Sweep × List PrimitiveId) : Prop :=
  Sweep.Steps c.wiring c.insertionOrder.eraseDups (Sweep.start c.wiring c.insertionOrder, []) m

/-- The state that the sweep ends in is its last moment. -/
theorem sweep?_eq_some (h : c.sweep? = some s) : c.Moment (s, []) ∧ s.queue = [] := Sweep.run?_eq_some h

/-- The sweep has a result exactly when none of its moments is stuck. -/
theorem sweep?_isSome_iff : (∃ s, c.sweep? = some s) ↔ ∀ m, c.Moment m → ¬ Sweep.Stuck m := Sweep.run?_isSome_iff

/-- An order is made of what the sweep lists. -/
theorem primitiveOrder?_eq_some_iff : c.primitiveOrder? = some order ↔
    ∃ s, c.sweep? = some s ∧ (if s.listed.length = c.insertionOrder.length then s.listed else c.insertionOrder) = order :=
  Option.map_eq_some_iff

/-- The sweep lists no primitive more often than it was added. -/
theorem listed_subperm (h : c.sweep? = some s) : s.listed.Subperm c.insertionOrder := by
  obtain ⟨hm, hq⟩ := sweep?_eq_some h
  have hsub := (Sweep.tally_of_steps hm).subperm
  rwa [hq, List.append_nil] at hsub

/-- Whatever the composition, its order lists the primitives as often as they were added. -/
theorem primitiveOrder?_perm (h : c.primitiveOrder? = some order) : order.Perm c.insertionOrder := by
  obtain ⟨s, hs, rfl⟩ := primitiveOrder?_eq_some_iff.mp h
  split
  · rename_i hlength
    exact (listed_subperm hs).perm_of_length_le (Nat.le_of_eq hlength.symm)
  · exact .refl _

end Composition

end DefiComposer
