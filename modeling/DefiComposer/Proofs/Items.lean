import DefiComposer.Catalog
import DefiComposer.Proofs.Releases
import Mathlib.Data.List.Basic

/-!
# Items: what the primitives contribute to a module

The items of a module stand in three groups, and each group is the join of what the primitives contribute to it, in their
order (`Composition.toModule?_constants` and its siblings). The constants that a primitive contributes are those of the
numbers and tags that its kind declares, one for each, in the order of the template (`Move.emit_constants`).
-/

namespace DefiComposer

/-! ## The three groups -/

namespace MoveModule

variable {m : MoveModule} {emitted : List Move.Emitted}

/-- The constants of the first group. -/
theorem constants_of_items (h : m.items = Move.groupedItems emitted) : m.constants = emitted.flatMap (·.constants) := by
  simp [constants, h, Move.groupedItems, List.filterMap_flatMap, List.filterMap_map]

/-- The records of the second group. -/
theorem records_of_items (h : m.items = Move.groupedItems emitted) : m.records = emitted.map (·.record) := by
  have hnil : emitted.flatMap (fun _ => ([] : List Move.Record)) = [] := by simp
  simp [records, h, Move.groupedItems, List.filterMap_flatMap, List.filterMap_map, hnil]

/-- The functions of the third group. -/
theorem functions_of_items (h : m.items = Move.groupedItems emitted) : m.functions = emitted.flatMap (·.functions) := by
  simp [functions, h, Move.groupedItems, List.filterMap_flatMap, List.filterMap_map]

end MoveModule

namespace Composition

variable {c : Composition} {options : Move.Options} {module : MoveModule}

/-- The items of a module are those of the primitives, whatever its wiring. -/
theorem toModule?_items (h : c.toModule? options = some module) : module.items = Move.groupedItems c.emitted := by
  obtain ⟨lines, -, rfl⟩ := toModule?_eq_some_iff.mp h
  rfl

/-- The constants of a module are those of the primitives, one after another. -/
theorem toModule?_constants (h : c.toModule? options = some module) :
    module.constants = c.emitted.flatMap (·.constants) :=
  MoveModule.constants_of_items (toModule?_items h)

/-- The records of a module are those of the primitives. -/
theorem toModule?_records (h : c.toModule? options = some module) : module.records = c.emitted.map (·.record) :=
  MoveModule.records_of_items (toModule?_items h)

/-- The functions of a module are those of the primitives, one after another. -/
theorem toModule?_functions (h : c.toModule? options = some module) :
    module.functions = c.emitted.flatMap (·.functions) :=
  MoveModule.functions_of_items (toModule?_items h)

/-- All constants come first, then the records, then the functions. -/
theorem toModule?_groups (h : c.toModule? options = some module) :
    module.items =
      module.constants.map .constant ++ module.records.map .record ++ module.functions.map .function := by
  rw [toModule?_items h, toModule?_constants h, toModule?_records h, toModule?_functions h, Move.groupedItems,
    List.map_flatMap, List.map_flatMap, List.map_map]
  rfl

end Composition

/-! ## The constants of a primitive -/

/-- The parameters of a kind that become constants: all but the symbols of assets. -/
def Kind.encoded (kind : Kind) : List Parameter := kind.template.parameters.filter (·.type ≠ .asset)

namespace Kind

variable {kind : Kind}

/-- What becomes a constant is declared. -/
theorem declared_of_encoded {d : Parameter} (h : d ∈ kind.encoded) : d ∈ kind.template.parameters :=
  List.mem_of_mem_filter h

/-- What becomes a constant is a number or the strategy, whose permitted tags are those that have a code. -/
theorem encoded_type (kind : Kind) :
    ∀ d ∈ kind.encoded, d.type = .number ∨
      d.type = .enumeration ∧ d.id = "strategy" ∧ d.constraints.allowed = Move.strategies := by
  cases kind <;> decide

end Kind

namespace Move

/-- What one unit of the literal of a parameter stands for: a day for the time of a lock, a hundredth of a percent for any
other number. -/
def measureOf (parameter : String) : Measure := if parameter = "lockPeriod" then .days else .basisPoints

/-- The constant of a parameter: its code for a tag, its literal for a number. -/
def Instance.constant (i : Instance) (d : Parameter) : Constant :=
  if d.type = .enumeration then i.strategy else i.number d.id (measureOf d.id)

/-- The constants of a primitive are those of its encoded parameters, in order. -/
theorem emit_constants (p : Primitive) (suffix : String) :
    (emit p suffix).constants = p.kind.encoded.map (Instance.constant ⟨p, suffix⟩) := by
  obtain ⟨id, kind, position, label, description, parameters, inputs, outputs⟩ := p
  cases kind <;> rfl

end Move

/-! ## The items of a composition -/

namespace Move

/-- Each kind gets a suffix. -/
theorem length_suffixesAfter (before kinds : List Kind) : (suffixesAfter before kinds).length = kinds.length := by
  induction kinds generalizing before with
  | nil => rfl
  | cons kind kinds ih => simp [suffixesAfter, ih]

/-- Each kind gets a suffix. -/
theorem length_suffixes (kinds : List Kind) : (suffixes kinds).length = kinds.length := length_suffixesAfter [] kinds

end Move

namespace Composition

variable {c : Composition} {options : Move.Options} {module : MoveModule}

/-- Each primitive is emitted once. -/
theorem length_emitted (c : Composition) : c.emitted.length = c.primitives.values.length := by
  rw [emitted, List.length_zipWith, Move.length_suffixes, List.length_map, Nat.min_self]

/-- What is emitted is emitted for some primitive, under some suffix. -/
theorem mem_emitted {e : Move.Emitted} (h : e ∈ c.emitted) :
    ∃ p ∈ c.primitives.values, ∃ suffix, e = Move.emit p suffix := by
  rw [emitted, ← List.map_uncurry_zip_eq_zipWith, List.mem_map] at h
  obtain ⟨⟨p, suffix⟩, hm, rfl⟩ := h
  exact ⟨p, (List.of_mem_zip hm).1, suffix, rfl⟩

/-- Every primitive is emitted, under some suffix. -/
theorem exists_mem_emitted {p : Primitive} (h : p ∈ c.primitives.values) :
    ∃ suffix, Move.emit p suffix ∈ c.emitted := by
  obtain ⟨n, hn, rfl⟩ := List.getElem_of_mem h
  have hs : n < (Move.suffixes (c.primitives.values.map (·.kind))).length := by
    rw [Move.length_suffixes, List.length_map]
    exact hn
  refine ⟨(Move.suffixes (c.primitives.values.map (·.kind)))[n], ?_⟩
  rw [emitted, List.mem_iff_getElem]
  exact ⟨n, by rw [List.length_zipWith]; omega, List.getElem_zipWith⟩

/-- Every constant of the module stands for an encoded parameter of a primitive. -/
theorem exists_of_mem_constants (h : c.toModule? options = some module) {k : Move.Constant} (hk : k ∈ module.constants) :
    ∃ p ∈ c.primitives.values, ∃ suffix, ∃ d ∈ p.kind.encoded, k = (⟨p, suffix⟩ : Move.Instance).constant d := by
  rw [toModule?_constants h, List.mem_flatMap] at hk
  obtain ⟨e, he, hk⟩ := hk
  obtain ⟨p, hp, suffix, rfl⟩ := mem_emitted he
  rw [Move.emit_constants, List.mem_map] at hk
  obtain ⟨d, hd, rfl⟩ := hk
  exact ⟨p, hp, suffix, d, hd, rfl⟩

/-- Every encoded parameter of a primitive has its constant in the module. -/
theorem exists_mem_constants (h : c.toModule? options = some module) {p : Primitive} (hp : p ∈ c.primitives.values)
    {d : Parameter} (hd : d ∈ p.kind.encoded) :
    ∃ suffix, (⟨p, suffix⟩ : Move.Instance).constant d ∈ module.constants := by
  obtain ⟨suffix, hs⟩ := exists_mem_emitted hp
  refine ⟨suffix, ?_⟩
  rw [toModule?_constants h, List.mem_flatMap]
  refine ⟨_, hs, ?_⟩
  rw [Move.emit_constants]
  exact List.mem_map_of_mem hd

end Composition

end DefiComposer
