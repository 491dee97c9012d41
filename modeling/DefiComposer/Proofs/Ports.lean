import DefiComposer.Proofs.Graphs
import DefiComposer.Proofs.WellFormed

/-!
# Ports: every look-up agrees where the numbers lead to the parts

Ports are looked up in four ways: among the outputs, among the inputs, on either side, and on one primitive only. Where no two
ports have one number and each names the primitive that it is on (`Composition.Addressed`), each of these finds the port that
is there, and they agree on whose it is (`Addressed.ownsPort_iff`). This asks nothing of the connections, and every
well-formed composition is so.
-/

namespace DefiComposer

theorem Primitive.outputs_subset (p : Primitive) : p.outputs ⊆ p.ports := List.subset_append_right _ _

theorem Primitive.inputs_subset (p : Primitive) : p.inputs ⊆ p.ports := List.subset_append_left _ _

namespace Composition

variable {c : Composition} {id : PortId} {port : Port}

/-- An output that is found is a port of the composition, of the name looked for. -/
theorem mem_ports_of_output? (h : c.output? id = some port) : port ∈ c.ports ∧ port.id = id := by
  obtain ⟨p, hp, hm, hid⟩ := output?_some h
  exact ⟨List.mem_flatMap.mpr ⟨p, hp, p.outputs_subset hm⟩, hid⟩

theorem mem_ports_of_input? (h : c.input? id = some port) : port ∈ c.ports ∧ port.id = id := by
  obtain ⟨p, hp, hm, hid⟩ := input?_some h
  exact ⟨List.mem_flatMap.mpr ⟨p, hp, p.inputs_subset hm⟩, hid⟩

end Composition

/-- The numbers lead to the parts: each primitive stands under its own, no two ports have one, and each port names the
primitive that it is on. -/
structure Composition.Addressed (c : Composition) : Prop where
  primitivesNamed : ∀ e ∈ c.primitives.entries, e.2.id = e.1
  portsDistinct : (c.ports.map (·.id)).Nodup
  owned : ∀ p ∈ c.primitives.values, ∀ port ∈ p.ports, port.owner = p.id

namespace Composition.Addressed

variable {c : Composition} {p : Primitive} {id : PortId} {port : Port}

/-! ## The look-ups -/

/-- The look-up under a name finds the primitive that has it. -/
theorem primitive?_eq_some_iff (h : c.Addressed) {name : PrimitiveId} :
    c.primitive? name = some p ↔ p ∈ c.primitives.values ∧ p.id = name :=
  OrderedMap.get?_eq_some_iff_name h.primitivesNamed

/-- A look-up among some of the ports of each primitive finds the port that is there. -/
theorem findSome?_eq_some_iff (h : c.Addressed) (side : Primitive → List Port)
    (hside : ∀ p ∈ c.primitives.values, (side p).Sublist p.ports) :
    c.primitives.values.findSome? (fun p => (side p).find? (·.id = id)) = some port ↔
      (∃ p ∈ c.primitives.values, port ∈ side p) ∧ port.id = id := by
  have hdistinct : ((c.primitives.values.flatMap side).map (·.id)).Nodup :=
    ((List.Sublist.flatMap_right _ hside).map _).nodup h.portsDistinct
  rw [← List.find?_flatMap, find?_eq_some_iff_of_nodup hdistinct, List.mem_flatMap]

/-- The look-up among outputs finds the output of the name, wherever it is. -/
theorem output?_eq_some_iff (h : c.Addressed) :
    c.output? id = some port ↔ (∃ p ∈ c.primitives.values, port ∈ p.outputs) ∧ port.id = id :=
  h.findSome?_eq_some_iff Primitive.outputs fun p _ => List.sublist_append_right p.inputs p.outputs

theorem input?_eq_some_iff (h : c.Addressed) :
    c.input? id = some port ↔ (∃ p ∈ c.primitives.values, port ∈ p.inputs) ∧ port.id = id :=
  h.findSome?_eq_some_iff Primitive.inputs fun p _ => List.sublist_append_left p.inputs p.outputs

/-- The look-up among all ports finds the port of the name, on whatever side. -/
theorem port?_eq_some_iff (h : c.Addressed) :
    c.port? id = some port ↔ (∃ p ∈ c.primitives.values, port ∈ p.ports) ∧ port.id = id :=
  h.findSome?_eq_some_iff Primitive.ports fun p _ => List.Sublist.refl p.ports

/-- An output of a primitive is found under its name. -/
theorem output?_of_mem (h : c.Addressed) (hp : p ∈ c.primitives.values) (hm : port ∈ p.outputs) :
    c.output? port.id = some port :=
  h.output?_eq_some_iff.mpr ⟨⟨p, hp, hm⟩, rfl⟩

theorem input?_of_mem (h : c.Addressed) (hp : p ∈ c.primitives.values) (hm : port ∈ p.inputs) :
    c.input? port.id = some port :=
  h.input?_eq_some_iff.mpr ⟨⟨p, hp, hm⟩, rfl⟩

/-- The owner of a port is the primitive that has it. -/
theorem portOwner?_of_mem (h : c.Addressed) (hp : p ∈ c.primitives.values) (hm : port ∈ p.ports) :
    c.portOwner? port.id = some p.id := by
  rw [portOwner?, h.port?_eq_some_iff.mpr ⟨⟨p, hp, hm⟩, rfl⟩, Option.map_some, h.owned p hp port hm]

/-- A primitive has a port exactly when the owner of the port is found to be this primitive. -/
theorem ownsPort_iff (h : c.Addressed) (hp : p ∈ c.primitives.values) :
    p.ownsPort id = true ↔ c.portOwner? id = some p.id := by
  simp only [Primitive.ownsPort, List.any_eq_true, decide_eq_true_eq]
  constructor
  · rintro ⟨port, hm, rfl⟩
    exact h.portOwner?_of_mem hp hm
  · intro ho
    obtain ⟨q, hq, port, hm, hid, hown⟩ := portOwner?_some ho
    rw [h.owned q hq port hm] at hown
    obtain rfl := OrderedMap.eq_of_name_eq h.primitivesNamed hq hp hown
    exact ⟨port, hm, hid⟩

end Composition.Addressed

namespace Composition.WellFormed

variable {c : Composition} {p : Primitive} {port : Port}

/-- A port names the primitive that it is on. -/
theorem owner_eq (h : c.WellFormed) (hp : p ∈ c.primitives.values) (hm : port ∈ p.ports) : port.owner = p.id := by
  rcases List.mem_append.mp hm with hm | hm
  · exact (h.follow p hp).inputs.owner port hm
  · exact (h.follow p hp).outputs.owner port hm

/-- In a well-formed composition names lead to the parts that have them. -/
theorem addressed (h : c.WellFormed) : c.Addressed where
  primitivesNamed := h.primitivesNamed
  portsDistinct := h.portsDistinct
  owned := fun _ hp _ hm => h.owner_eq hp hm

/-! ## The ports of a connection -/

/-- The ports of a connection are found, on two primitives and with tags that are declared and go together. -/
theorem exists_ports (h : c.WellFormed) {k : Connection} (hk : k ∈ c.connections.values) :
    ∃ p ∈ c.primitives.values, ∃ q ∈ c.primitives.values, ∃ source ∈ p.outputs, ∃ target ∈ q.inputs,
      c.output? k.source = some source ∧ c.input? k.target = some target ∧ p.id ≠ q.id ∧
        (compatibility source.resourceType target.resourceType).isSome := by
  obtain ⟨p, hp, q, hq, source, hs, target, ht, hsid, htid, hne, -, hc⟩ := h.joined k hk
  refine ⟨p, hp, q, hq, source, hs, target, ht, ?_, ?_, hne, hc⟩
  · rw [← hsid]
    exact h.addressed.output?_of_mem hp hs
  · rw [← htid]
    exact h.addressed.input?_of_mem hq ht

/-- Both ports of a connection have owners. -/
theorem exists_owners (h : c.WellFormed) {k : Connection} (hk : k ∈ c.connections.values) :
    ∃ a b, c.portOwner? k.source = some a ∧ c.portOwner? k.target = some b := by
  obtain ⟨p, hp, q, hq, source, hs, target, ht, hsid, htid, -⟩ := h.joined k hk
  rw [← hsid, ← htid]
  exact ⟨p.id, q.id, h.addressed.portOwner?_of_mem hp (p.outputs_subset hs),
    h.addressed.portOwner?_of_mem hq (q.inputs_subset ht)⟩

end Composition.WellFormed

end DefiComposer
