import DefiComposer.Composition
import DefiComposer.Text.Basic

/-!
# Wiring: which primitives feed which, the order that follows, and the connections as a reader sees them
-/

namespace DefiComposer

/-!
## The wiring graph

The nodes are the names under which the primitives stand, and with them the owners that connected ports name. There is an
edge from one owner to another when some connection joins their ports; several connections make one edge.
-/

/-- A directed graph on primitives. No node and no edge is listed twice. -/
structure WiringGraph where
  nodes : List PrimitiveId
  edges : List (PrimitiveId × PrimitiveId)

namespace WiringGraph

/-- Whether one primitive feeds another. -/
def hasEdge (g : WiringGraph) (a b : PrimitiveId) : Bool := g.edges.contains (a, b)

/-- How many primitives feed one; one that feeds itself counts. -/
def inDegree (g : WiringGraph) (b : PrimitiveId) : Nat := g.edges.countP (·.2 = b)

end WiringGraph

namespace Composition

/-- The owners of the ports that a connection joins, if both ports exist. -/
def joinedOwners? (c : Composition) (k : Connection) : Option (PrimitiveId × PrimitiveId) :=
  match c.portOwner? k.source, c.portOwner? k.target with
  | some a, some b => some (a, b)
  | _, _ => none

/-- The graph of the connections between primitives. -/
def wiring (c : Composition) : WiringGraph :=
  let edges := (c.connections.values.filterMap c.joinedOwners?).eraseDups
  ⟨(c.primitives.keys ++ edges.flatMap fun e => [e.1, e.2]).eraseDups, edges⟩

end Composition

/-!
## Order: primitives after the ones that feed them

The sweep keeps, for each primitive, how many of those that feed it are still to come. Primitives with none left wait in a
queue; taking one from it lowers the count of each that it feeds, and a count that comes to zero puts its primitive at the
end of the queue. A count of zero cannot be lowered: where primitives share a name this may be asked for, and then the sweep
fails. If the sweep does not list every primitive, the wiring has a cycle, and the order is the one in which the primitives
were added.

Each step takes one primitive from the queue, and adds to it only primitives whose count falls to zero, so the length of the
queue and the number of positive counts fall together: this bounds the sweep.
-/

/-- The state of a sweep: the counts, the primitives that wait, and those listed so far. -/
structure Sweep where
  counts : List (PrimitiveId × Nat)
  queue : List PrimitiveId
  listed : List PrimitiveId
  deriving DecidableEq

namespace Sweep

/-- How many counts are positive. -/
def positive (counts : List (PrimitiveId × Nat)) : Nat := counts.countP (0 < ·.2)

/-- The counts with that of one primitive, which is above zero, lowered. -/
def lower (id : PrimitiveId) : List (PrimitiveId × Nat) → List (PrimitiveId × Nat)
  | [] => []
  | (other, n) :: rest => if other = id then (other, n - 1) :: rest else (other, n) :: lower id rest

/-- Lowers the count of one primitive, which is above zero, and puts it in the queue if its count comes to zero. -/
def release (s : Sweep) (id : PrimitiveId) : Sweep :=
  { s with
    counts := lower id s.counts
    queue := if s.counts.lookup id = some 1 then s.queue ++ [id] else s.queue }

/-- Releases a primitive; fails if its count is zero already. -/
def release? (s : Sweep) (id : PrimitiveId) : Option Sweep :=
  if s.counts.lookup id = some 0 then none else some (s.release id)

/-- What bounds the steps to come: the primitives that wait and those that may still come to wait. -/
def bound (s : Sweep) : Nat := s.queue.length + positive s.counts

/-- Lowering the count of a primitive leaves one positive count fewer if it was one, and no more of them in any case. -/
theorem positive_lower (id : PrimitiveId) (counts : List (PrimitiveId × Nat)) :
    positive (lower id counts) + (if counts.lookup id = some 1 then 1 else 0) ≤ positive counts := by
  induction counts with
  | nil => simp [lower, positive]
  | cons entry rest ih =>
    obtain ⟨other, n⟩ := entry
    unfold positive at ih ⊢
    by_cases h : other = id
    · subst h
      simp only [lower, if_true, List.countP_cons, List.lookup_cons, beq_self_eq_true, Option.some.injEq,
        decide_eq_true_eq]
      split <;> split <;> split <;> omega
    · have h' : (id == other) = false := by simpa using fun e => h e.symm
      simp only [lower, h, if_false, List.countP_cons, List.lookup_cons, h']
      omega

/-- A release leaves no more steps to come. -/
theorem bound_release (s : Sweep) (id : PrimitiveId) : (s.release id).bound ≤ s.bound := by
  have h := positive_lower id s.counts
  unfold bound release
  dsimp only
  split <;> rename_i hl <;> simp only [hl, if_true, if_false, List.length_append, List.length_singleton] at h ⊢ <;>
    omega

/-- A release succeeds exactly where the count is not zero. -/
theorem release?_eq_some_iff {s s' : Sweep} {id : PrimitiveId} :
    s.release? id = some s' ↔ s.counts.lookup id ≠ some 0 ∧ s.release id = s' := by
  unfold release?
  split
  · rename_i h
    simp [h]
  · rename_i h
    simp [h]

/-- Releasing several primitives one after another. -/
def releaseAll? (s : Sweep) (ids : List PrimitiveId) : Option Sweep := ids.foldlM release? s

/-- Releases leave no more steps to come. -/
theorem bound_releaseAll? {s s' : Sweep} {ids : List PrimitiveId} (h : s.releaseAll? ids = some s') :
    s'.bound ≤ s.bound := by
  induction ids generalizing s with
  | nil =>
    cases h
    exact Nat.le_refl _
  | cons id ids ih =>
    obtain ⟨next, hnext, hrest⟩ := Option.bind_eq_some_iff.mp h
    obtain ⟨-, rfl⟩ := release?_eq_some_iff.mp hnext
    exact Nat.le_trans (ih hrest) (bound_release s id)

/-- The state that a sweep over a graph ends in: it takes the primitives from the queue one after another until none waits,
and fails when a release fails. `insertion` is the order in which the primitives that one feeds are released. -/
def run? (g : WiringGraph) (insertion : List PrimitiveId) (s : Sweep) : Option Sweep :=
  match _h : s.queue with
  | [] => some s
  | id :: queue =>
    match _hnext : (⟨s.counts, queue, s.listed ++ [id]⟩ : Sweep).releaseAll? (insertion.filter (g.hasEdge id)) with
    | none => none
    | some next => run? g insertion next
termination_by s.bound
decreasing_by
  refine Nat.lt_of_le_of_lt (bound_releaseAll? _hnext) ?_
  simp [bound, _h]

/-- The state before the first step: each primitive with the number of those that feed it, and in the queue those with
none. -/
def start (g : WiringGraph) (insertion : List PrimitiveId) : Sweep :=
  { counts := insertion.eraseDups.map fun id => (id, g.inDegree id)
    queue := insertion.filter fun id => g.inDegree id = 0
    listed := [] }

end Sweep

namespace Composition

/-- The names of the primitives, in the order in which they were added. -/
def insertionOrder (c : Composition) : List PrimitiveId := c.primitives.values.map (·.id)

/-- The state that the sweep over the wiring ends in. -/
def sweep? (c : Composition) : Option Sweep :=
  Sweep.run? c.wiring c.insertionOrder.eraseDups (Sweep.start c.wiring c.insertionOrder)

/-- The primitives, each after the ones that feed it, and among those that are free in the order in which they were added;
in that order altogether if the wiring has a cycle. -/
def primitiveOrder? (c : Composition) : Option (List PrimitiveId) :=
  c.sweep?.map fun s => if s.listed.length = c.insertionOrder.length then s.listed else c.insertionOrder

/-!
## Lines: the connections as a reader sees them

One line for each connection from an output of a primitive to an input of another one that is there, grouped by source
primitive in the order of the wiring.
-/

/-- The line of a connection: labels of source and target with those of their ports, and the tag of the connection. -/
def wiringLine (source : Primitive) (output : Port) (target : Primitive) (input : Port) (resourceType : String) : String :=
  Text.singleLine source.label ++ "." ++ Text.singleLine output.label ++ " -> " ++ Text.singleLine target.label ++ "." ++
    Text.singleLine input.label ++ " (" ++ resourceType ++ ")"

/-- The line of a connection that starts at a given primitive, if it does and its target is there. -/
def wiringLine? (c : Composition) (p : Primitive) (k : Connection) : Option String :=
  match p.output? k.source with
  | none => none
  | some output =>
    match c.input? k.target with
    | none => none
    | some input =>
      match c.primitive? input.owner with
      | none => none
      | some target => some (wiringLine p output target input k.resourceType)

/-- The lines of the connections that start at the primitive under a name. -/
def wiringLinesFrom (c : Composition) (id : PrimitiveId) : List String :=
  match c.primitive? id with
  | none => []
  | some p => c.connections.values.filterMap (c.wiringLine? p)

/-- The lines of all connections. -/
def wiringLines? (c : Composition) : Option (List String) := c.primitiveOrder?.map (·.flatMap c.wiringLinesFrom)

end Composition

end DefiComposer
