import DefiComposer.Proofs.Items
import Mathlib.Data.List.DropRight
import Mathlib.Data.List.Nodup

/-!
# Names: what the items of a module are called

The name of an item is a base, which its kind of primitive gives, and the suffix of its primitive. So the names of a module
are determined by the kinds of its primitives in order (`Move.suffixed`). No two of them are equal within a group: a base
ends in a letter, hence a name falls apart into base and suffix in one way only (`Move.append_suffix_inj`); the base tells
the kind (`Move.DistinctBases`), and among the primitives of one kind no suffix occurs twice (`Move.nodup_zip_suffixes`).
-/

namespace DefiComposer

namespace Move

/-! ## Suffixes -/

/-- The characters that suffixes are made of. -/
def isMark (c : Char) : Bool := c.isDigit || c == '_'

/-- A suffix holds underscores and digits only. -/
theorem isMark_of_mem_suffix {n : Nat} {c : Char} (h : c ∈ (suffix n).toList) : isMark c = true := by
  unfold suffix at h
  split at h
  · cases h
  · rw [String.toList_append, List.mem_append, Nat.toList_repr] at h
    rcases h with h | h
    · rw [List.mem_singleton.mp h]
      decide
    · have hd := Nat.isDigit_of_mem_toDigits (by decide) (by decide) h
      simp [isMark, hd]

/-- The numbers from one on have different suffixes. -/
theorem suffix_injective {m n : Nat} (hm : 1 ≤ m) (hn : 1 ≤ n) (h : suffix m = suffix n) : m = n := by
  have hne : ∀ k : Nat, "_" ++ k.repr ≠ "" := fun k hk => by simpa using congrArg String.toList hk
  unfold suffix at h
  split at h
  · split at h
    · omega
    · exact absurd h.symm (hne n)
  · split at h
    · exact absurd h (hne m)
    · have hd : Nat.toDigits 10 m = Nat.toDigits 10 n := by
        rw [← Nat.toList_repr, ← Nat.toList_repr, (String.append_right_inj "_").mp h]
      rw [← Nat.ofDigitChars_ten_toDigits (n := m), hd, Nat.ofDigitChars_ten_toDigits]

/-- A text that does not end in a mark stands before a suffix as what is left when the marks at the end are dropped. -/
theorem rdropWhile_append_suffix {base : String} (hb : base.toList.rdropWhile isMark = base.toList) (n : Nat) :
    (base ++ suffix n).toList.rdropWhile isMark = base.toList := by
  have hs : ∀ c ∈ (suffix n).toList.reverse, isMark c = true := fun c hc =>
    isMark_of_mem_suffix (List.mem_reverse.mp hc)
  rw [String.toList_append, List.rdropWhile, List.reverse_append, List.dropWhile_append_of_pos hs]
  exact hb

/-- A name that ends in no mark but those of its suffix falls apart in one way only. -/
theorem append_suffix_inj {a b : String} {m n : Nat} (ha : a.toList.rdropWhile isMark = a.toList)
    (hb : b.toList.rdropWhile isMark = b.toList) (h : a ++ suffix m = b ++ suffix n) :
    a = b ∧ suffix m = suffix n := by
  have hab : a = b := by
    rw [← String.toList_inj, ← rdropWhile_append_suffix ha m, h, rdropWhile_append_suffix hb n]
  subst hab
  exact ⟨rfl, String.append_right_inj a |>.mp h⟩

/-- A primitive is numbered beyond those of its kind that came before. -/
theorem exists_of_mem_zip {before kinds : List Kind} {e : Kind × String}
    (h : e ∈ kinds.zip (suffixesAfter before kinds)) : ∃ n, before.count e.1 < n ∧ e.2 = suffix n := by
  induction kinds generalizing before with
  | nil => cases h
  | cons kind kinds ih =>
    rcases List.mem_cons.mp h with rfl | h
    · exact ⟨before.count kind + 1, Nat.lt_succ_self _, rfl⟩
    · obtain ⟨n, hn, hs⟩ := ih h
      rw [List.count_append] at hn
      exact ⟨n, by omega, hs⟩

/-- No two primitives have both kind and suffix in common. -/
theorem nodup_zip_suffixesAfter (before kinds : List Kind) : (kinds.zip (suffixesAfter before kinds)).Nodup := by
  induction kinds generalizing before with
  | nil => exact List.nodup_nil
  | cons kind kinds ih =>
    refine List.nodup_cons.mpr ⟨fun h => ?_, ih (before ++ [kind])⟩
    obtain ⟨n, hn, hs⟩ := exists_of_mem_zip h
    simp only [List.count_append, List.count_singleton_self] at hn
    have := suffix_injective (by omega) (by omega) hs
    omega

/-- No kind has one suffix twice. -/
theorem nodup_zip_suffixes (kinds : List Kind) : (kinds.zip (suffixes kinds)).Nodup := nodup_zip_suffixesAfter [] kinds

/-! ## Bases -/

/-- The names that primitives of the given kinds get from bases: for each primitive the bases of its kind with its suffix. -/
def suffixed (bases : Kind → List String) (kinds : List Kind) : List String :=
  (kinds.zip (suffixes kinds)).flatMap fun e => (bases e.1).map (· ++ e.2)

/-- With as many names for each kind, there are so many for each primitive. -/
theorem length_suffixed {bases : Kind → List String} {n : Nat} (h : ∀ kind, (bases kind).length = n) (kinds : List Kind) :
    (suffixed bases kinds).length = n * kinds.length := by
  simp [suffixed, List.length_flatMap, h, length_suffixes, Nat.mul_comm]

/-- Bases are distinct when each occurs once and for one kind only, and none ends in a mark. -/
structure DistinctBases (bases : Kind → List String) : Prop where
  nodup : ∀ kind, (bases kind).Nodup
  apart : ∀ kind kind', ∀ base ∈ bases kind, base ∈ bases kind' → kind = kind'
  unmarked : ∀ kind, ∀ base ∈ bases kind, base.toList.rdropWhile isMark = base.toList

/-- Names that are distinct before the suffixes are distinct with them. -/
theorem suffixed_nodup {bases : Kind → List String} (h : DistinctBases bases) (kinds : List Kind) :
    (suffixed bases kinds).Nodup := by
  rw [suffixed, List.nodup_flatMap]
  refine ⟨fun e _ => (h.nodup e.1).map fun a b hab => (String.append_left_inj e.2).mp hab, ?_⟩
  refine (nodup_zip_suffixes kinds).imp_of_mem fun {e f} he hf hne name hname hname' => hne ?_
  -- a name of both gives one base, hence one kind, and one suffix
  obtain ⟨a, ha, rfl⟩ := List.mem_map.mp hname
  obtain ⟨b, hb, hab⟩ := List.mem_map.mp hname'
  obtain ⟨m, -, hm⟩ := exists_of_mem_zip he
  obtain ⟨n, -, hn⟩ := exists_of_mem_zip hf
  rw [hm, hn] at hab
  obtain ⟨rfl, hs⟩ := append_suffix_inj (h.unmarked _ _ hb) (h.unmarked _ _ ha) hab
  exact Prod.ext (h.apart _ _ _ ha hb) (by rw [hm, hn, hs])

end Move

namespace Kind

/-- The bases of the names of constants: one for each encoded parameter. -/
def constantBases (kind : Kind) : List String := kind.encoded.map (Move.constantIdent ·.id)

/-- The base of the name of the record. -/
def recordBase : Kind → String
  | lendingPool => "LendingPool"
  | ammPool => "AmmPool"
  | staking => "StakingPool"
  | vault => "Vault"

/-- The bases of the names of functions. -/
def functionBases : Kind → List String
  | lendingPool => ["initialize_lending_pool", "deposit", "borrow"]
  | ammPool => ["initialize_amm_pool", "add_liquidity", "swap_a_to_b"]
  | staking => ["initialize_staking_pool", "stake", "claim_rewards"]
  | vault => ["initialize_vault", "deposit_to_vault", "withdraw_from_vault"]

theorem functionBases_length (kind : Kind) : kind.functionBases.length = 3 := by cases kind <;> rfl

/-- The constants of all kinds are distinct, and no suffix takes one to another. -/
theorem constantBases_distinct : Move.DistinctBases constantBases where
  nodup kind := by cases kind <;> decide
  apart kind kind' := by cases kind <;> cases kind' <;> decide
  unmarked kind := by cases kind <;> decide

theorem recordBase_distinct : Move.DistinctBases fun kind => [kind.recordBase] where
  nodup kind := List.nodup_singleton _
  apart kind kind' := by cases kind <;> cases kind' <;> decide
  unmarked kind := by cases kind <;> decide

theorem functionBases_distinct : Move.DistinctBases functionBases where
  nodup kind := by cases kind <;> decide
  apart kind kind' := by cases kind <;> cases kind' <;> decide
  unmarked kind := by cases kind <;> decide

end Kind

/-! ## The names of a primitive -/

namespace Move

/-- A constant is named after its parameter, with the suffix of the primitive. -/
theorem Instance.constant_name {i : Instance} {d : Parameter} (hd : d ∈ i.primitive.kind.encoded) :
    (i.constant d).name = constantIdent d.id ++ i.suffix := by
  rcases i.primitive.kind.encoded_type d hd with ht | ⟨ht, hid, -⟩
  · rw [constant, if_neg (by rw [ht]; decide), number]
    split <;> rfl
  · have hbase : constantIdent "strategy" = "STRATEGY" := by decide
    rw [constant, if_pos ht, strategy, hid, hbase]
    split <;> rfl

variable (p : Primitive) (suffix : String)

/-- The names of the constants that a primitive emits. -/
theorem emit_constant_names : (emit p suffix).constants.map (·.name) = p.kind.constantBases.map (· ++ suffix) := by
  rw [emit_constants, Kind.constantBases, List.map_map, List.map_map]
  exact List.map_congr_left fun d hd => Instance.constant_name hd

theorem emit_record_name : (emit p suffix).record.name = p.kind.recordBase ++ suffix := by
  obtain ⟨id, kind, position, label, description, parameters, inputs, outputs⟩ := p
  cases kind <;> rfl

/-- The names of the functions that a primitive emits. -/
theorem emit_function_names : (emit p suffix).functions.map (·.name) = p.kind.functionBases.map (· ++ suffix) := by
  obtain ⟨id, kind, position, label, description, parameters, inputs, outputs⟩ := p
  cases kind <;> rfl

end Move

/-! ## The names of a module -/

namespace Composition

/-- The kinds of the primitives in order. -/
def kinds (c : Composition) : List Kind := c.primitives.values.map (·.kind)

/-- Names that each primitive gets from bases of its kind and its suffix are those of the kinds in order. -/
theorem emitted_names (c : Composition) {names : Move.Emitted → List String} {bases : Kind → List String}
    (h : ∀ p suffix, names (Move.emit p suffix) = (bases p.kind).map (· ++ suffix)) :
    c.emitted.flatMap names = Move.suffixed bases c.kinds := by
  rw [emitted, ← List.map_uncurry_zip_eq_zipWith, List.flatMap_map, Move.suffixed, kinds, List.zip_map_left,
    List.flatMap_map]
  exact List.flatMap_congr fun e _ => h e.1 e.2

variable {c : Composition} {options : Move.Options} {module : MoveModule}

/-- The names of the constants of a module. -/
theorem constant_names (h : c.toModule? options = some module) :
    module.constants.map (·.name) = Move.suffixed Kind.constantBases c.kinds := by
  rw [toModule?_constants h, List.map_flatMap]
  exact c.emitted_names Move.emit_constant_names

/-- The names of the records of a module. -/
theorem record_names (h : c.toModule? options = some module) :
    module.records.map (·.name) = Move.suffixed (fun kind => [kind.recordBase]) c.kinds := by
  rw [toModule?_records h, List.map_map, List.map_eq_flatMap]
  exact c.emitted_names fun p suffix => congrArg (fun name => [name]) (Move.emit_record_name p suffix)

example : Move.suffixed (fun kind => [kind.recordBase]) [.vault, .staking, .vault] =
    ["Vault", "StakingPool", "Vault_2"] := by decide

/-- The names of the functions of a module. -/
theorem function_names (h : c.toModule? options = some module) :
    module.functions.map (·.name) = Move.suffixed Kind.functionBases c.kinds := by
  rw [toModule?_functions h, List.map_flatMap]
  exact c.emitted_names Move.emit_function_names

/-- The names in a module are determined by the kinds of the primitives in order, and none of them occurs twice among the
constants, among the records or among the functions. All constants come first, then a record for each primitive, then three
functions for each primitive, in the order of the primitives. This holds of every module that a composition has; there is
one where the wiring is not to be listed, and where no two primitives share a name. -/
theorem names_of_kinds (c : Composition) (options : Move.Options) :
    (options.includeWiring = false ∨ c.insertionOrder.Nodup → ∃ module, c.toModule? options = some module) ∧
      ∀ module, c.toModule? options = some module →
        (module.items =
            module.constants.map .constant ++ module.records.map .record ++ module.functions.map .function) ∧
          (module.constants.map (·.name) = Move.suffixed Kind.constantBases c.kinds ∧
            module.records.map (·.name) = Move.suffixed (fun kind => [kind.recordBase]) c.kinds ∧
            module.functions.map (·.name) = Move.suffixed Kind.functionBases c.kinds) ∧
          (module.records.length = c.primitives.values.length ∧
            module.functions.length = 3 * c.primitives.values.length) ∧
          (module.constants.map (·.name)).Nodup ∧ (module.records.map (·.name)).Nodup ∧
            (module.functions.map (·.name)).Nodup := by
  refine ⟨exists_toModule? options, fun module hm => ?_⟩
  have hk := constant_names hm
  have hr := record_names hm
  have hf := function_names hm
  have hkinds : c.kinds.length = c.primitives.values.length := List.length_map _
  have hrecords := Move.length_suffixed (fun kind => List.length_singleton (a := kind.recordBase)) c.kinds
  have hfunctions := Move.length_suffixed Kind.functionBases_length c.kinds
  rw [← hr, List.length_map, hkinds, Nat.one_mul] at hrecords
  rw [← hf, List.length_map, hkinds] at hfunctions
  refine ⟨toModule?_groups hm, ⟨hk, hr, hf⟩, ⟨hrecords, hfunctions⟩, ?_, ?_, ?_⟩
  · rw [hk]
    exact Move.suffixed_nodup Kind.constantBases_distinct c.kinds
  · rw [hr]
    exact Move.suffixed_nodup Kind.recordBase_distinct c.kinds
  · rw [hf]
    exact Move.suffixed_nodup Kind.functionBases_distinct c.kinds

end Composition

end DefiComposer
