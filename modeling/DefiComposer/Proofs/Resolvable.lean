import DefiComposer.Proofs.Comments
import DefiComposer.Proofs.Places
import DefiComposer.Proofs.Ports
import DefiComposer.Proofs.WiringOrder

/-!
# Resolvable connections: which ends are found, and which connections make an edge

A connection can be resolved when it starts at an output port and ends at an input port. The validation misses an end of a
connection exactly where it cannot be resolved (`Composition.resolvable_iff_no_dangling`), and the wiring has a line for exactly
the connections that can (`Composition.Addressed.isListed_iff`). The edges of the wiring graph are found another way: the ends
are looked up on either side of the primitives, so a connection from an input or to an output makes an edge too
(`Composition.Addressed.feeds_iff`). Without such connections the edges are those of the resolvable ones; with them the graph
may have edges, and cycles, of which the lines and the findings know nothing (`Composition.backflow_order`).
-/

namespace DefiComposer

namespace Primitive

/-- Whether a connection starts at one of the output ports. -/
def sends (p : Primitive) (k : Connection) : Bool := p.outputs.any (·.id = k.source)

/-- Whether a connection ends at one of the input ports. -/
def receives (p : Primitive) (k : Connection) : Bool := p.inputs.any (·.id = k.target)

variable {p : Primitive} {k : Connection}

theorem sends_iff : p.sends k = true ↔ ∃ port ∈ p.outputs, port.id = k.source := by simp [sends]

theorem receives_iff : p.receives k = true ↔ ∃ port ∈ p.inputs, port.id = k.target := by simp [receives]

/-- A primitive that sends a connection has its source. -/
theorem ownsPort_of_sends (h : p.sends k = true) : p.ownsPort k.source = true := by
  obtain ⟨port, hm, hid⟩ := sends_iff.mp h
  exact List.any_eq_true.mpr ⟨port, p.outputs_subset hm, by simpa using hid⟩

theorem ownsPort_of_receives (h : p.receives k = true) : p.ownsPort k.target = true := by
  obtain ⟨port, hm, hid⟩ := receives_iff.mp h
  exact List.any_eq_true.mpr ⟨port, p.inputs_subset hm, by simpa using hid⟩

end Primitive

namespace Composition

/-- A connection leads from an output port of a primitive to an input port of a primitive. -/
def Resolvable (c : Composition) (k : Connection) : Prop :=
  ∃ p ∈ c.primitives.values, ∃ q ∈ c.primitives.values, p.sends k = true ∧ q.receives k = true

instance (c : Composition) (k : Connection) : Decidable (c.Resolvable k) :=
  inferInstanceAs (Decidable (∃ p ∈ c.primitives.values, ∃ q ∈ c.primitives.values, p.sends k = true ∧ q.receives k = true))

variable {c : Composition} {k : Connection} {p q : Primitive}

/-! ## The findings -/

/-- A connection can be resolved exactly when the validation misses neither of its ends. -/
theorem resolvable_iff_no_dangling :
    c.Resolvable k ↔ ∀ i ∈ c.connectionIssues k, i.kind ≠ .danglingSource ∧ i.kind ≠ .danglingTarget := by
  have hfindings : (∀ i ∈ c.connectionIssues k, i.kind ≠ .danglingSource ∧ i.kind ≠ .danglingTarget) ↔
      ¬ c.Finding (.connection k) .danglingSource ∧ ¬ c.Finding (.connection k) .danglingTarget := by
    simp only [← mem_kinds_issuesAt, issuesAt, List.mem_map, not_exists, not_and, forall_and, ne_eq]
  rw [hfindings]
  simp only [Resolvable, Finding, Primitive.sends_iff, Primitive.receives_iff, outputs, inputs, List.mem_flatMap]
  push Not
  constructor
  · rintro ⟨p, hp, q, hq, ⟨output, ho, hs⟩, input, hi, ht⟩
    exact ⟨⟨output, ⟨p, hp, ho⟩, hs⟩, input, ⟨q, hq, hi⟩, ht⟩
  · rintro ⟨⟨output, ⟨p, hp, ho⟩, hs⟩, input, ⟨q, hq, hi⟩, ht⟩
    exact ⟨p, hp, q, hq, ⟨output, ho, hs⟩, input, hi, ht⟩

namespace Addressed

/-! ## The lines of the wiring -/

/-- The ends of a connection from an output of one primitive to an input of another one are found. -/
theorem exists_ends (h : c.Addressed) (hq : q ∈ c.primitives.values) (hs : p.sends k = true) (hr : q.receives k = true) :
    ∃ output ∈ p.outputs, ∃ input ∈ q.inputs, (output.id = k.source ∧ p.output? k.source = some output) ∧
      (input.id = k.target ∧ c.input? k.target = some input) ∧ c.primitive? input.owner = some q := by
  have hsome : (p.output? k.source).isSome = true := by simpa [Primitive.output?] using Primitive.sends_iff.mp hs
  obtain ⟨output, ho⟩ := Option.isSome_iff_exists.mp hsome
  obtain ⟨input, hinput, hid⟩ := Primitive.receives_iff.mp hr
  have houtput : output.id = k.source := by simpa using List.find?_some ho
  refine ⟨output, List.mem_of_find?_eq_some ho, input, hinput, ⟨houtput, ho⟩, ⟨hid, ?_⟩, ?_⟩
  · exact h.input?_eq_some_iff.mpr ⟨⟨q, hq, hinput⟩, hid⟩
  · exact h.primitive?_eq_some_iff.mpr ⟨hq, (h.owned q hq input (q.inputs_subset hinput)).symm⟩

/-- A connection can be resolved when one end is found on a primitive and the other one in the composition. -/
theorem resolvable_of_found (h : c.Addressed) (hp : p ∈ c.primitives.values) {output input : Port}
    (ho : p.output? k.source = some output) (hi : c.input? k.target = some input) :
    p.sends k = true ∧ c.Resolvable k := by
  obtain ⟨⟨q, hq, hinput⟩, hid⟩ := h.input?_eq_some_iff.mp hi
  have hs : p.sends k = true :=
    Primitive.sends_iff.mpr ⟨output, List.mem_of_find?_eq_some ho, by simpa using List.find?_some ho⟩
  exact ⟨hs, p, hp, q, hq, hs, Primitive.receives_iff.mpr ⟨input, hinput, hid⟩⟩

/-- A connection has a line in the wiring exactly when it can be resolved. -/
theorem isListed_iff (h : c.Addressed) (hk : k ∈ c.connections.values) : c.IsListed k ↔ c.Resolvable k := by
  constructor
  · rintro ⟨-, id, -, p, output, input, -, hp, ho, hi, -⟩
    exact (h.resolvable_of_found (OrderedMap.mem_values_of_get? hp) ho hi).2
  · rintro ⟨p, hp, q, hq, hs, hr⟩
    obtain ⟨output, -, input, -, ⟨-, ho⟩, ⟨-, hi⟩, htarget⟩ := h.exists_ends hq hs hr
    have hname : c.primitive? p.id = some p := h.primitive?_eq_some_iff.mpr ⟨hp, rfl⟩
    exact ⟨hk, p.id, List.mem_map_of_mem hp, p, output, input, q, hname, ho, hi, htarget⟩

/-! ## The edges of the wiring graph -/

/-- There is an edge exactly where some connection has its source on the one primitive and its target on the other, on
whichever sides. -/
theorem feeds_iff (h : c.Addressed) (hp : p ∈ c.primitives.values) (hq : q ∈ c.primitives.values) :
    c.wiring.Feeds p.id q.id ↔ ∃ k ∈ c.connections.values, p.ownsPort k.source = true ∧ q.ownsPort k.target = true := by
  simp only [WiringGraph.Feeds, mem_wiring_edges, h.ownsPort_iff hp, h.ownsPort_iff hq]

/-- The wiring fits the insertion order. -/
theorem fits (h : c.Addressed) : Sweep.Fits c.wiring c.insertionOrder := by
  refine wiring_fits h.primitivesNamed fun p hp port hm => ?_
  rw [h.owned p hp port hm]
  exact OrderedMap.mem_keys_of_get? (h.primitive?_eq_some_iff.mpr ⟨hp, rfl⟩)

/-- The edges join primitives that are there. -/
theorem exists_of_feeds (h : c.Addressed) {a b : PrimitiveId} (hf : c.wiring.Feeds a b) :
    (∃ p ∈ c.primitives.values, p.id = a) ∧ ∃ q ∈ c.primitives.values, q.id = b := by
  obtain ⟨k, -, ha, hb⟩ := mem_wiring_edges.mp hf
  obtain ⟨p, hp, port, hm, -, rfl⟩ := portOwner?_some ha
  obtain ⟨q, hq, port', hm', -, rfl⟩ := portOwner?_some hb
  exact ⟨⟨p, hp, (h.owned p hp port hm).symm⟩, q, hq, (h.owned q hq port' hm').symm⟩

/-- A port is on one primitive only. -/
theorem eq_of_ownsPort (h : c.Addressed) {id : PortId} (hp : p ∈ c.primitives.values) (hq : q ∈ c.primitives.values)
    (howns : p.ownsPort id = true) (howns' : q.ownsPort id = true) : p = q := by
  have howner : c.portOwner? id = some p.id := (h.ownsPort_iff hp).mp howns
  rw [(h.ownsPort_iff hq).mp howns', Option.some.injEq] at howner
  exact OrderedMap.eq_of_name_eq h.primitivesNamed hp hq howner.symm

/-- A connection that can be resolved leads from an output to an input of the primitives that its ends are on. -/
theorem sends_of_resolvable (h : c.Addressed) (hk : c.Resolvable k) (hp : p ∈ c.primitives.values)
    (hq : q ∈ c.primitives.values) (hsource : p.ownsPort k.source = true) (htarget : q.ownsPort k.target = true) :
    p.sends k = true ∧ q.receives k = true := by
  obtain ⟨p', hp', q', hq', hs, hr⟩ := hk
  obtain rfl := h.eq_of_ownsPort hp hp' hsource (Primitive.ownsPort_of_sends hs)
  obtain rfl := h.eq_of_ownsPort hq hq' htarget (Primitive.ownsPort_of_receives hr)
  exact ⟨hs, hr⟩

/-- The edges are those of the connections from outputs to inputs exactly when each connection that joins two primitives in
another way has one from an output to an input beside it. -/
theorem feeds_iff_sends_iff (h : c.Addressed) :
    (∀ p ∈ c.primitives.values, ∀ q ∈ c.primitives.values,
      (c.wiring.Feeds p.id q.id ↔ ∃ k ∈ c.connections.values, p.sends k = true ∧ q.receives k = true)) ↔
    ∀ k ∈ c.connections.values, ∀ p ∈ c.primitives.values, ∀ q ∈ c.primitives.values,
      p.ownsPort k.source = true → q.ownsPort k.target = true →
        ∃ k' ∈ c.connections.values, p.sends k' = true ∧ q.receives k' = true := by
  constructor
  · intro hedges k hk p hp q hq hsource htarget
    exact (hedges p hp q hq).mp ((h.feeds_iff hp hq).mpr ⟨k, hk, hsource, htarget⟩)
  · intro hbeside p hp q hq
    rw [h.feeds_iff hp hq]
    constructor
    · rintro ⟨k, hk, hsource, htarget⟩
      exact hbeside k hk p hp q hq hsource htarget
    · rintro ⟨k, hk, hs, hr⟩
      exact ⟨k, hk, Primitive.ownsPort_of_sends hs, Primitive.ownsPort_of_receives hr⟩

end Addressed

/-- In a well-formed composition every connection can be resolved. -/
theorem WellFormed.resolvable (h : c.WellFormed) (hk : k ∈ c.connections.values) : c.Resolvable k := by
  obtain ⟨p, hp, q, hq, source, hs, target, ht, hsid, htid, -⟩ := h.joined k hk
  exact ⟨p, hp, q, hq, Primitive.sends_iff.mpr ⟨source, hs, hsid⟩, Primitive.receives_iff.mpr ⟨target, ht, htid⟩⟩

/-- The wiring of a composition whose numbers lead to its parts, whatever its connections. A connection can be resolved
exactly when the validation misses neither of its ends, and exactly when it has a line. There is an edge exactly where a
connection has its source on the one primitive and its target on the other, and no edge leads elsewhere. These are the edges
of the connections from outputs to inputs exactly when each connection that joins two primitives in another way has such a
one beside it; so they are where each connection whose ends are both on some primitive can be resolved. -/
theorem wiring_exact (c : Composition) (h : c.Addressed) :
    (∀ k ∈ c.connections.values,
      (c.Resolvable k ↔ ∀ i ∈ c.connectionIssues k, i.kind ≠ .danglingSource ∧ i.kind ≠ .danglingTarget) ∧
      (c.Resolvable k ↔ c.IsListed k)) ∧
    (∀ p ∈ c.primitives.values, ∀ q ∈ c.primitives.values, (c.wiring.Feeds p.id q.id ↔
      ∃ k ∈ c.connections.values, p.ownsPort k.source = true ∧ q.ownsPort k.target = true)) ∧
    (∀ a b, c.wiring.Feeds a b → (∃ p ∈ c.primitives.values, p.id = a) ∧ ∃ q ∈ c.primitives.values, q.id = b) ∧
    ((∀ p ∈ c.primitives.values, ∀ q ∈ c.primitives.values,
        (c.wiring.Feeds p.id q.id ↔ ∃ k ∈ c.connections.values, p.sends k = true ∧ q.receives k = true)) ↔
      ∀ k ∈ c.connections.values, ∀ p ∈ c.primitives.values, ∀ q ∈ c.primitives.values,
        p.ownsPort k.source = true → q.ownsPort k.target = true →
          ∃ k' ∈ c.connections.values, p.sends k' = true ∧ q.receives k' = true) ∧
    ((∀ k ∈ c.connections.values, ∀ p ∈ c.primitives.values, ∀ q ∈ c.primitives.values,
        p.ownsPort k.source = true → q.ownsPort k.target = true → c.Resolvable k) →
      ∀ p ∈ c.primitives.values, ∀ q ∈ c.primitives.values,
        (c.wiring.Feeds p.id q.id ↔ ∃ k ∈ c.connections.values, p.sends k = true ∧ q.receives k = true)) := by
  refine ⟨fun k hk => ⟨resolvable_iff_no_dangling, (h.isListed_iff hk).symm⟩, fun p hp q hq => h.feeds_iff hp hq,
    fun a b hf => h.exists_of_feeds hf, h.feeds_iff_sends_iff, fun hresolvable => h.feeds_iff_sends_iff.mpr ?_⟩
  intro k hk p hp q hq hsource htarget
  exact ⟨k, hk, h.sends_of_resolvable (hresolvable k hk p hp q hq hsource htarget) hp hq hsource htarget⟩

/-- The loans of a pool go into a vault: the one edge is that of the one connection. -/
theorem loansIntoVault_exact :
    loansIntoVault.Addressed ∧
    (∀ k ∈ loansIntoVault.connections.values, loansIntoVault.Resolvable k) ∧
    ∀ p ∈ loansIntoVault.primitives.values, ∀ q ∈ loansIntoVault.primitives.values,
      (loansIntoVault.wiring.Feeds p.id q.id ↔
        ∃ k ∈ loansIntoVault.connections.values, p.sends k = true ∧ q.receives k = true) := by
  have haddressed : loansIntoVault.Addressed := ⟨by decide, by decide, by decide⟩
  have hresolvable : ∀ k ∈ loansIntoVault.connections.values, loansIntoVault.Resolvable k := by decide
  exact ⟨haddressed, hresolvable,
    (wiring_exact loansIntoVault haddressed).2.2.2.2 fun k hk _ _ _ _ _ _ => hresolvable k hk⟩

/-! ## A connection against the flow -/

/-- A lending pool lends to a vault, and a second connection runs from the input of the vault to an input of the pool. -/
def backflow : Composition :=
  let c := Composition.new .zero .epoch "Backflow" ""
  let c := (c.addPrimitive .epoch .vault default).2
  let c := (c.addPrimitive .epoch .lendingPool default).2
  { c with connections := .ofList [(⟨0⟩, ⟨⟨0⟩, ⟨5⟩, ⟨0⟩, "asset"⟩), (⟨1⟩, ⟨⟨1⟩, ⟨0⟩, ⟨3⟩, "asset"⟩)] }

theorem backflow_addressed : backflow.Addressed := ⟨by decide, by decide, by decide⟩

/-- Each of the two connections makes an edge. -/
theorem backflow_edges : backflow.wiring.edges = [(⟨1⟩, ⟨0⟩), (⟨0⟩, ⟨1⟩)] := by decide

/-- The connection against the flow has no line and closes a cycle, so the vault is listed before the pool that feeds it. -/
theorem backflow_order : backflow.primitiveOrder? = some [⟨0⟩, ⟨1⟩] := by
  have hcyclic : backflow.wiring.Cyclic := by
    refine ⟨⟨0⟩, .tail (.single (b := ⟨1⟩) ?_) ?_⟩ <;> simp [WiringGraph.Feeds, backflow_edges]
  obtain ⟨order, ho⟩ := exists_primitiveOrder? backflow_addressed.fits
  have hinsertion : backflow.insertionOrder = [⟨0⟩, ⟨1⟩] := rfl
  rw [ho, order_of_cyclic backflow_addressed.fits hcyclic ho, hinsertion]

/-- There is an edge from the vault to the pool, and no connection from an output of the vault. -/
theorem backflow_feeds :
    ¬ ∀ c : Composition, c.Addressed → ∀ p ∈ c.primitives.values, ∀ q ∈ c.primitives.values,
      (c.wiring.Feeds p.id q.id ↔ ∃ k ∈ c.connections.values, p.sends k = true ∧ q.receives k = true) := by
  intro h
  have hbeside := backflow_addressed.feeds_iff_sends_iff.mp (h backflow backflow_addressed)
  exact absurd hbeside (by decide)

end Composition

end DefiComposer
