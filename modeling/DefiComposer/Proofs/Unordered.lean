import DefiComposer.Json.Basic
import DefiComposer.Proofs.Doubles

/-!
# Unordered: which doubles can be compared, and which texts give one that cannot

Two doubles are in no order exactly when one of them is a NaN (`Double.compare_eq_none_iff`), so to be not below a bound is
to be at least the bound or to be out of order with it (`Double.not_lt_iff`). The arithmetic that turns a decimal into a
double never makes a NaN: nothing is divided by zero or by an infinity, and no infinity is multiplied by zero
(`Decimal.isNaN_toFloat`, `Json.Number.isNaN_of_toFloat?`). So the only text that gives one is the word for it
(`isNaN_of_readFloat?`).
-/

namespace DefiComposer

namespace Double

open Float.Model Float.Model.UnpackedFloat

/-! ## Comparing -/

/-- Two signs compare the other way round when they change places. -/
theorem compare_sign_swap (s s' : Sign) : (compare s' s).swap = compare s s' := by
  cases s <;> cases s' <;> rfl

/-- Comparing two numbers the other way round gives the other order. -/
theorem compare_swap (u v : UnpackedFloat) : u.compare v = (v.compare u).map Ordering.swap := by
  -- one case for each pair of classes and signs; two infinities are in the order of their signs
  rcases u with (_ | _) | _ | (_ | _) | ⟨_ | _, m, e, hm⟩ <;>
    rcases v with (_ | _) | _ | (_ | _) | ⟨_ | _, m', e', hm'⟩ <;>
    simp [UnpackedFloat.compare, compare_sign_swap, Ordering.swap_then, Int.compare_swap, Nat.compare_swap]

/-- Two numbers are in no order exactly when one of them is a NaN. -/
theorem compare_eq_none_iff (u v : UnpackedFloat) : u.compare v = none ↔ u.isNaN = true ∨ v.isNaN = true := by
  rcases u with (_ | _) | _ | (_ | _) | ⟨_ | _, m, e, hm⟩ <;>
    rcases v with (_ | _) | _ | (_ | _) | ⟨_ | _, m', e', hm'⟩ <;>
    simp [UnpackedFloat.compare, UnpackedFloat.isNaN]

variable {x y : Float}

/-- One double is less than another exactly when the numbers they stand for compare so. -/
theorem lt_iff : x < y ↔ x.toModel.unpack.compare y.toModel.unpack = some .lt := by
  have hlt : x < y ↔ decide (x.toModel < y.toModel) = true := Iff.rfl
  have hmodel : x.toModel < y.toModel ↔ (x.toModel.unpack.compare y.toModel.unpack == some .lt) = true := Iff.rfl
  rw [hlt, decide_eq_true_iff, hmodel, beq_iff_eq]

/-- One double is at most another exactly when the numbers they stand for compare so. -/
theorem le_iff : x ≤ y ↔ ∃ o, x.toModel.unpack.compare y.toModel.unpack = some o ∧ o.isLE = true := by
  have hle : x ≤ y ↔ decide (x.toModel ≤ y.toModel) = true := Iff.rfl
  have hmodel : x.toModel ≤ y.toModel ↔ (x.toModel.unpack.compare y.toModel.unpack).any (·.isLE) = true := Iff.rfl
  rw [hle, decide_eq_true_iff, hmodel, Option.any_eq_true]

/-- What is not below a bound is at least the bound, or it is in no order with it. -/
theorem not_lt_iff : ¬ x < y ↔ y ≤ x ∨ x.isNaN = true ∨ y.isNaN = true := by
  have hnone : x.isNaN = true ∨ y.isNaN = true ↔ x.toModel.unpack.compare y.toModel.unpack = none :=
    (compare_eq_none_iff _ _).symm
  rw [lt_iff, le_iff, hnone, compare_swap y.toModel.unpack]
  cases x.toModel.unpack.compare y.toModel.unpack with
  | none => simp
  | some o => cases o <;> simp [Ordering.swap, Ordering.isLE]

/-- A NaN is in no order with anything. -/
theorem isNaN_of_le (h : x ≤ y) : x.isNaN = false ∧ y.isNaN = false := by
  obtain ⟨o, ho, -⟩ := le_iff.mp h
  have hsome : ¬ (x.isNaN = true ∨ y.isNaN = true) := by
    intro hnan
    rw [(compare_eq_none_iff _ _).mpr hnan] at ho
    cases ho
  simpa using hsome

/-! ## Packing and signs -/

/-- Packing gives a NaN for a NaN only. -/
theorem isNaN_pack (u : UnpackedFloat) : (Float.ofModel (Float.Model.pack u)).isNaN = u.isNaN := by
  have hpack : (Float.ofModel (Float.Model.pack u)).isNaN =
      (UnpackedFloat.unpack Format.binary64 (UnpackedFloat.pack Format.binary64 u)).isNaN := rfl
  rw [hpack]
  cases u with
  | infinity s => cases s <;> rfl
  | notANumber => rfl
  | zero s => cases s <;> rfl
  | finite s m e hm =>
    by_cases he : e ≤ 971
    · have hbelow := below_unpack_pack s hm he
      cases hu : UnpackedFloat.unpack Format.binary64 (UnpackedFloat.pack Format.binary64 (.finite s m e hm)) with
      | notANumber => rw [hu] at hbelow; exact hbelow.elim
      | _ => rfl
    · -- beyond the range of doubles
      have hbias := exponentBias_binary64
      have hbits : Format.binary64.mantissaBits = 53 := rfl
      simp only [UnpackedFloat.pack]
      rw [if_pos (by omega)]
      cases s <;> rfl

theorem isNaN_neg (x : Float) : (-x).isNaN = x.isNaN := by
  have hneg : (-x).isNaN = (Float.ofModel (Float.Model.pack x.toModel.unpack.neg)).isNaN := rfl
  have hx : x.isNaN = x.toModel.unpack.isNaN := rfl
  rw [hneg, isNaN_pack, hx]
  cases x.toModel.unpack <;> rfl

/-! ## Products and quotients -/

/-- Rounding never gives NaN. -/
theorem isNaN_roundWithAccuracy (s : Sign) (m : Nat) (e : Int) (a : Accuracy) :
    (roundWithAccuracy Format.binary64 s m e a).isNaN = false := by
  obtain ⟨p, q, r, -, -, -, -, ⟨-, hround⟩ | ⟨_, hround⟩⟩ := roundWithAccuracy_binary64 s m e a
  · rw [hround]
    rfl
  · rw [hround]
    rfl

/-- A double of 53 bits is neither zero nor an infinity. -/
theorem From.exists_finite {l : Int} (h : From l y) : ∃ s m e hm, y.toModel.unpack = .finite s m e hm := by
  have hnormal := h.normal
  cases hy : y.toModel.unpack with
  | finite s m e hm => exact ⟨s, m, e, hm, rfl⟩
  | _ => rw [hy] at hnormal; exact hnormal.elim

/-- A product with such a number is a NaN for a NaN only. -/
theorem isNaN_mul {l : Int} (hx : x.isNaN = false) (hy : From l y) : (x * y).isNaN = false := by
  have hmul : (x * y).isNaN =
      (Float.ofModel (Float.Model.pack (UnpackedFloat.mul Format.binary64 x.toModel.unpack y.toModel.unpack))).isNaN := rfl
  have hnumber : x.toModel.unpack.isNaN = false := hx
  obtain ⟨s, m, e, hm, hfinite⟩ := hy.exists_finite
  rw [hmul, isNaN_pack, hfinite]
  cases hu : x.toModel.unpack with
  | finite => exact isNaN_roundWithAccuracy _ _ _ _
  | notANumber => rw [hu] at hnumber; cases hnumber
  | _ => rfl

/-- A quotient by such a number is a NaN for a NaN only. -/
theorem isNaN_div {l : Int} (hx : x.isNaN = false) (hy : From l y) : (x / y).isNaN = false := by
  have hdiv : (x / y).isNaN =
      (Float.ofModel (Float.Model.pack (UnpackedFloat.div Format.binary64 x.toModel.unpack y.toModel.unpack))).isNaN := rfl
  have hnumber : x.toModel.unpack.isNaN = false := hx
  obtain ⟨s, m, e, hm, hfinite⟩ := hy.exists_finite
  rw [hdiv, isNaN_pack, hfinite]
  cases hu : x.toModel.unpack with
  | finite => exact isNaN_roundWithAccuracy _ _ _ _
  | notANumber => rw [hu] at hnumber; cases hnumber
  | _ => rfl

/-! ## Decimals -/

/-- The powers of ten in the table are at least one. -/
theorem from_exactPower : ∀ n, (h : n < Float.exactlyRepresentablePowersOfTen.size) →
    From 1 Float.exactlyRepresentablePowersOfTen[n] := by
  decide +kernel

/-- No natural number becomes NaN. -/
theorem isNaN_toFloat (n : UInt64) : n.toFloat.isNaN = false := by
  refine (isNaN_pack _).trans ?_
  unfold UnpackedFloat.ofUInt64 UnpackedFloat.ofNat UnpackedFloat.ofInt UnpackedFloat.normalize
  split
  · exact isNaN_roundWithAccuracy _ _ _ _
  · rfl
  · exact isNaN_roundWithAccuracy _ _ _ _

/-- A decimal is no NaN. -/
theorem isNaN_ofScientific (n : Nat) (negative : Bool) (p : Nat) : (Float.ofScientific n negative p).isNaN = false := by
  unfold Float.ofScientific
  split
  · rename_i h
    have hpower := from_exactPower p (Nat.lt_of_le_of_lt h.2 (by decide))
    cases negative
    · exact isNaN_mul (isNaN_toFloat _) hpower
    · exact isNaN_div (isNaN_toFloat _) hpower
  · refine (isNaN_pack _).trans ?_
    generalize (if negative then Int.negOfNat p else Int.ofNat p) = e
    unfold UnpackedFloat.ofScientific
    split
    · rfl
    split
    · rfl
    split
    · rfl
    split
    · exact isNaN_roundWithAccuracy _ _ _ _
    · exact isNaN_roundWithAccuracy _ _ _ _

theorem isNaN_of_isFinite (h : x.isFinite = true) : x.isNaN = false := by
  have hx : x.isNaN = x.toModel.unpack.isNaN := rfl
  have hfinite : x.toModel.unpack.isFinite = true := h
  rw [hx]
  cases hu : x.toModel.unpack with
  | notANumber => rw [hu] at hfinite; cases hfinite
  | _ => rfl

end Double

namespace Decimal

open Double

/-- The nearest double to a decimal is no NaN. -/
theorem isNaN_toFloat (d : Decimal) : d.toFloat.isNaN = false := by
  have hmagnitude : d.magnitude.isNaN = false := by
    unfold magnitude
    split
    · decide
    split
    · decide
    split
    · decide
    exact isNaN_ofScientific _ _ _
  unfold toFloat
  split
  · rw [isNaN_neg]
    exact hmagnitude
  · exact hmagnitude

/-- Dividing by powers of ten does not lead to NaN. -/
theorem isNaN_shrink {x : Float} (h : x.isNaN = false) (places : Nat) : (shrink x places).isNaN = false := by
  induction x, places using shrink.induct with
  | case1 x places hp =>
    rw [shrink, if_pos hp]
    exact isNaN_div h (from_powerOfTen hp)
  | case2 x places hp hx =>
    rw [shrink, if_neg hp, if_pos hx]
    exact h
  | case3 x places hp hx ih =>
    rw [shrink, if_neg hp, if_neg hx]
    exact ih (isNaN_div h from_powerOfTen_greatest)

/-- What a decimal scales to is no NaN. -/
theorem isNaN_of_scaled? {d : Decimal} {x : Float} (h : d.scaled? = some x) : x.isNaN = false := by
  have hmagnitude : ∀ y, d.scaledMagnitude? = some y → y.isNaN = false := by
    intro y hy
    unfold scaledMagnitude? at hy
    dsimp only at hy
    split at hy
    · cases hy
      decide
    split at hy
    · cases hy
      exact isNaN_shrink (isNaN_ofScientific _ _ _) _
    split at hy
    · cases hy
    split at hy
    · rename_i hfinite
      cases hy
      exact isNaN_of_isFinite hfinite
    · cases hy
  obtain ⟨y, hy, rfl⟩ := Option.map_eq_some_iff.mp h
  split
  · rw [isNaN_neg]
    exact hmagnitude y hy
  · exact hmagnitude y hy

end Decimal

/-- A number of JSON is no NaN. -/
theorem Json.Number.isNaN_of_toFloat? {n : Json.Number} {x : Float} (h : n.toFloat? = some x) : x.isNaN = false := by
  cases n with
  | integer n =>
    obtain rfl := Option.some.inj h
    exact Decimal.isNaN_toFloat _
  | decimal d => exact Decimal.isNaN_of_scaled? h

/-- A text spells the word for no number: an optional sign and its three letters, in any case. -/
def SpellsNaN (s : List Char) : Prop :=
  ∃ word, (s = word ∨ s = '+' :: word ∨ s = '-' :: word) ∧ word.map Char.toLower = ['n', 'a', 'n']

/-- The sign is not one of the letters. -/
theorem spellsNaN_iff {s : List Char} :
    SpellsNaN s ↔ (Decimal.scanSign s).2.map Char.toLower = ['n', 'a', 'n'] := by
  have hsign : ∀ c rest, c = '+' ∨ c = '-' → (c :: rest).map Char.toLower ≠ ['n', 'a', 'n'] := by
    rintro c rest (rfl | rfl) h
    · exact absurd (List.cons.inj h).1 (by decide)
    · exact absurd (List.cons.inj h).1 (by decide)
  unfold SpellsNaN Decimal.scanSign
  split
  · refine ⟨?_, fun h => ⟨_, Or.inr (Or.inr rfl), h⟩⟩
    rintro ⟨word, rfl | h | h, hword⟩
    · exact absurd hword (hsign _ _ (Or.inr rfl))
    · exact absurd (List.cons.inj h).1 (by decide)
    · rwa [(List.cons.inj h).2]
  · refine ⟨?_, fun h => ⟨_, Or.inr (Or.inl rfl), h⟩⟩
    rintro ⟨word, rfl | h | h, hword⟩
    · exact absurd hword (hsign _ _ (Or.inl rfl))
    · rwa [(List.cons.inj h).2]
    · exact absurd (List.cons.inj h).1 (by decide)
  · rename_i hminus hplus
    refine ⟨?_, fun h => ⟨_, Or.inl rfl, h⟩⟩
    rintro ⟨word, rfl | rfl | rfl, hword⟩
    · exact hword
    · exact absurd rfl (hplus word)
    · exact absurd rfl (hminus word)

/-- What is read behind the sign is NaN exactly when it spells so, in whatever case. -/
theorem isNaN_of_readMagnitude? {negative : Bool} {s : List Char} {x : Float} (h : readMagnitude? negative s = some x) :
    x.isNaN = true ↔ s.map Char.toLower = ['n', 'a', 'n'] := by
  unfold readMagnitude? at h
  dsimp only at h
  split at h
  · rename_i hinfinite
    have hne : s.map Char.toLower ≠ ['n', 'a', 'n'] := by
      intro hn
      rw [hn] at hinfinite
      exact absurd hinfinite (by decide)
    cases h
    refine iff_of_false ?_ hne
    cases negative <;> decide
  split at h
  · rename_i hnan
    cases h
    exact iff_of_true (by decide) (String.ofList_inj.mp (beq_iff_eq.mp hnan))
  · rename_i hnan
    split at h
    · cases h
      refine iff_of_false (Bool.eq_false_iff.mp (Decimal.isNaN_toFloat _)) fun hn => hnan ?_
      rw [hn]
      decide
    · cases h

/-- A text gives a NaN exactly when it spells one. -/
theorem isNaN_of_readFloat? {s : List Char} {x : Float} (h : readFloat? s = some x) : x.isNaN = true ↔ SpellsNaN s := by
  rw [spellsNaN_iff]
  exact isNaN_of_readMagnitude? h

end DefiComposer
