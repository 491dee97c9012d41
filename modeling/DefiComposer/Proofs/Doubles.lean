import DefiComposer.Decimal.Reading
import Mathlib

/-!
# Doubles: which roundings stay finite

Two bounds on a double go through the arithmetic that turns a decimal of one word into a double. `UpTo k` says that it
is finite and below `2 ^ k`, and `From l` that it is no less than `2 ^ (l - 1)` and has all its 53 bits. A product or a
quotient moves a bound by that of the other operand, and rounding moves it by one place
(`Double.roundWithAccuracy_binary64`). So whatever is scaled down is finite, however large the power of ten
(`Decimal.isFinite_of_scaled?`), and so are integers of 64 bits (`Decimal.isFinite_toFloat`).

The bounds are meant for numbers far from the ends of the range of doubles: none below `2 ^ -1000` is kept. The greatest
exponent of a double is 971; up to it, packing gives a finite double.
-/

namespace DefiComposer

namespace Double

open Float.Model Float.Model.UnpackedFloat

/-! ## Leading bits -/

theorem log2_mono {m n : Nat} (h : m ≤ n) : m.log2 ≤ n.log2 := by
  rw [Nat.log2_eq_log_two, Nat.log2_eq_log_two]
  exact Nat.log_mono_right h

/-- Halving a number several times lowers its logarithm by as many. -/
theorem log2_div_pow (m n : Nat) : (m / 2 ^ n).log2 = m.log2 - n := by
  rw [Nat.log2_eq_log_two, Nat.log2_eq_log_two, Nat.log_div_base_pow]

/-- Doubling a number several times raises its logarithm by at most as many; that of zero stays. -/
theorem log2_shiftLeft_le (m n : Nat) : (m <<< n).log2 ≤ m.log2 + n := by
  have h := log2_div_pow (m <<< n) n
  rw [Nat.shiftLeft_eq, Nat.mul_div_cancel _ (Nat.two_pow_pos n)] at h
  rw [Nat.shiftLeft_eq]
  omega

/-- The successor of a number has at most one binary digit more. -/
theorem log2_le_succ {m n : Nat} (h : n ≤ m + 1) : n.log2 ≤ m.log2 + 1 := by
  have hm : m < 2 ^ (m.log2 + 1) := Nat.lt_log2_self
  have hpow : n ≤ 2 ^ (m.log2 + 1) := by omega
  calc n.log2 ≤ (2 ^ (m.log2 + 1)).log2 := log2_mono hpow
    _ = m.log2 + 1 := Nat.log2_two_pow

/-- A number of so many bits is below the power of two with that exponent. -/
theorem log2_toNat_le {n : Nat} (b : BitVec (n + 1)) : b.toNat.log2 ≤ n := by
  rcases Nat.eq_zero_or_pos b.toNat with hb | hb
  · simp [hb]
  · exact Nat.le_of_lt_succ ((Nat.log2_lt hb.ne').mpr b.isLt)

/-! ## Rounding -/

/-- A shift to the right divides the mantissa; what is shifted out is remembered beside it. -/
theorem mantissa_shiftRight (em : ExtendedMantissa) (n : Nat) : (em >>> n).mantissa = em.mantissa / 2 ^ n := by
  induction n with
  | zero => exact (Nat.div_one _).symm
  | succ n ih =>
    have hstep : (em >>> (n + 1)).mantissa = (em >>> n).mantissa / 2 := rfl
    rw [hstep, ih, Nat.div_div_eq_div_mul, Nat.pow_succ]

/-- A mantissa is put together with what is remembered of the digits behind it, and read back. -/
theorem mantissa_ofMantissaAndAccuracy (m : Nat) (a : Accuracy) :
    (ExtendedMantissa.ofMantissaAndAccuracy m a).mantissa = m := by
  rcases a with _ | _ | _ | _ <;> rfl

/-- Rounding keeps a mantissa or raises it by one, in whatever direction it goes. -/
theorem roundedMantissa_bounds (em : ExtendedMantissa) :
    em.mantissa ≤ em.roundedMantissa ∧ em.roundedMantissa ≤ em.mantissa + 1 := by
  obtain ⟨m, r, s⟩ := em
  unfold ExtendedMantissa.roundedMantissa
  cases r <;> cases s <;> simp only [ExtendedMantissa.accuracy, Accuracy.roundToNearestEven] <;> omega

/-- In a double the least bit of a number stands 53 places below its greatest one, or at the least exponent there is. -/
theorem targetExponent_binary64 (t : Int) : Format.binary64.targetExponent t = max (t - 53) (-1074) := by
  simp [Format.targetExponent, Format.minExponent, Format.mantissaBits]

/-- What rounding does: it drops `p` places, raises the leading bit by at most one place, and drops `q` more places of
the outcome `r`. -/
theorem roundWithAccuracy_binary64 (s : Sign) (m : Nat) (e : Int) (a : Accuracy) :
    ∃ p q r : Nat, p = (max ((m.log2 : Int) + 1 + e - 53) (-1074) - e).toNat ∧
      q = (max ((r.log2 : Int) + 1 + (e + p) - 53) (-1074) - (e + p)).toNat ∧
      m.log2 - p ≤ r.log2 ∧ r.log2 ≤ m.log2 - p + 1 ∧
      ((r / 2 ^ q = 0 ∧ roundWithAccuracy Format.binary64 s m e a = .zero s) ∨
        ∃ h, roundWithAccuracy Format.binary64 s m e a = .finite s (r / 2 ^ q) (e + p + q) h) := by
  obtain ⟨p, hp⟩ : ∃ p : Nat, p = (max ((m.log2 : Int) + 1 + e - 53) (-1074) - e).toNat := ⟨_, rfl⟩
  have hbounds := roundedMantissa_bounds (ExtendedMantissa.ofMantissaAndAccuracy m a >>> p)
  rw [mantissa_shiftRight, mantissa_ofMantissaAndAccuracy] at hbounds
  refine ⟨p, _, (ExtendedMantissa.ofMantissaAndAccuracy m a >>> p).roundedMantissa, hp, rfl, ?_, ?_, ?_⟩
  · rw [← log2_div_pow]
    exact log2_mono hbounds.1
  · rw [← log2_div_pow]
    exact log2_le_succ hbounds.2
  · simp only [roundWithAccuracy, shiftToTargetExponent, shiftToExponent, targetExponent_binary64, totalExponent,
      mantissa_shiftRight, mantissa_ofMantissaAndAccuracy, ← hp]
    split
    · rename_i hzero
      exact Or.inl ⟨hzero, rfl⟩
    · rename_i hne
      exact Or.inr ⟨Nat.pos_of_ne_zero hne, rfl⟩

/-- Zero, or a finite number whose leading bit stands below the place `k`: a number below `2 ^ k`. -/
def Below (k : Int) : UnpackedFloat → Prop
  | .zero _ => True
  | .finite _ m e _ => totalExponent m e ≤ k
  | _ => False

/-- A number of 53 bits from `2 ^ (l - 1)` up. -/
def Normal (l : Int) : UnpackedFloat → Prop
  | .finite _ m e _ => m.log2 = 52 ∧ l ≤ totalExponent m e
  | _ => False

theorem Below.mono {k l : Int} (hkl : k ≤ l) {u : UnpackedFloat} (h : Below k u) : Below l u := by
  cases u with
  | zero s => trivial
  | finite s m e hm => exact h.trans hkl
  | _ => exact h

/-- What is below some power of two is finite. -/
theorem Below.isFinite {k : Int} {u : UnpackedFloat} (h : Below k u) : u.isFinite = true := by
  cases u with
  | zero => rfl
  | finite => rfl
  | _ => exact h.elim

theorem Normal.mono {k l : Int} (hkl : k ≤ l) {u : UnpackedFloat} (h : Normal l u) : Normal k u := by
  cases u with
  | finite s m e hm => exact ⟨h.1, hkl.trans h.2⟩
  | _ => exact h

/-- Rounding raises the leading bit by at most one place. -/
theorem below_roundWithAccuracy {k : Int} (hk : -1000 ≤ k) (s : Sign) {m : Nat} {e : Int} (a : Accuracy)
    (h : totalExponent m e ≤ k) : Below (k + 1) (roundWithAccuracy Format.binary64 s m e a) := by
  obtain ⟨p, q, r, hp, hq, -, hr, ⟨-, hround⟩ | ⟨_, hround⟩⟩ := roundWithAccuracy_binary64 s m e a
  · rw [hround]
    trivial
  · rw [hround]
    simp only [Below, totalExponent, log2_div_pow] at h ⊢
    omega

/-- Rounding a number of at least 53 bits does not lower its leading bit. -/
theorem normal_roundWithAccuracy {l : Int} (hl : -1000 ≤ l) (s : Sign) {m : Nat} {e : Int} (a : Accuracy)
    (hm : 52 ≤ m.log2) (h : l ≤ totalExponent m e) : Normal l (roundWithAccuracy Format.binary64 s m e a) := by
  obtain ⟨p, q, r, hp, hq, hlow, hhigh, hround⟩ := roundWithAccuracy_binary64 s m e a
  rw [totalExponent] at h
  have hlog : (r / 2 ^ q).log2 = 52 := by
    rw [log2_div_pow]
    omega
  obtain ⟨hzero, -⟩ | ⟨_, hround⟩ := hround
  · rw [hzero] at hlog
    exact absurd hlog (by decide)
  · rw [hround]
    refine ⟨hlog, ?_⟩
    rw [totalExponent, hlog]
    omega

/-- The exponents of two factors add up in the bound of their product, with one more for the rounding. -/
theorem below_mul {k l : Int} (hkl : -1000 ≤ k + l) {u v : UnpackedFloat} (hu : Below k u) (hv : Below l v) :
    Below (k + l + 1) (UnpackedFloat.mul Format.binary64 u v) := by
  cases u <;> cases v <;> first | trivial | skip
  case finite s m e hm s' m' e' hm' =>
    refine below_roundWithAccuracy hkl _ _ ?_
    simp only [Below, totalExponent] at hu hv ⊢
    have hlt : m * m' < 2 ^ (m.log2 + 1 + m'.log2 + 1) := by
      calc m * m' < 2 ^ (m.log2 + 1) * 2 ^ (m'.log2 + 1) :=
            Nat.mul_lt_mul'' Nat.lt_log2_self Nat.lt_log2_self
        _ = 2 ^ (m.log2 + 1 + m'.log2 + 1) := (Nat.pow_add 2 _ _).symm
    have hlog := (Nat.log2_lt (Nat.mul_pos hm hm').ne').mpr hlt
    omega

/-- The leading bit of a quotient stands where the difference of the leading bits says, or one place higher. -/
theorem below_div {k l : Int} (hk : -1000 ≤ k - l + 1) {u v : UnpackedFloat} (hu : Below k u) (hv : Normal l v) :
    Below (k - l + 2) (UnpackedFloat.div Format.binary64 u v) := by
  cases u <;> cases v <;> first | exact hu.elim | exact hv.elim | trivial | skip
  case finite.finite s' m' e' hm' s m e hm =>
    obtain ⟨-, hv⟩ := hv
    refine (below_roundWithAccuracy hk _ _ ?_).mono (by omega)
    simp only [targetExponent_binary64]
    simp only [Below, totalExponent] at hu hv ⊢
    generalize ht : min (e' - e) (max ((m'.log2 : Int) + 1 + e' - (m.log2 + 1 + e) - 53) (-1074)) = t
    generalize hq : m' <<< (e' - e - t).toNat / m = q
    have hshift := log2_shiftLeft_le m' (e' - e - t).toNat
    have hlog : q = 0 ∨ q.log2 + m.log2 ≤ (m' <<< (e' - e - t).toNat).log2 := by
      refine or_iff_not_imp_left.mpr fun hq0 => ?_
      rw [← Nat.log2_two_pow (n := q.log2 + m.log2)]
      refine log2_mono ?_
      calc 2 ^ (q.log2 + m.log2) = 2 ^ q.log2 * 2 ^ m.log2 := Nat.pow_add 2 _ _
        _ ≤ q * m := Nat.mul_le_mul (Nat.log2_self_le hq0) (Nat.log2_self_le hm.ne')
        _ ≤ m' <<< (e' - e - t).toNat := by rw [← hq]; exact Nat.div_mul_le_self _ _
    rcases hlog with rfl | hlog
    · simp only [Nat.log2_zero]
      omega
    · omega

/-- Rounding a natural number to a double takes it past one power of two at most. -/
theorem below_ofNat {k : Int} (hk : 0 ≤ k) {n : Nat} (h : totalExponent n 0 ≤ k) :
    Below (k + 1) (UnpackedFloat.ofNat Format.binary64 n) := by
  unfold UnpackedFloat.ofNat UnpackedFloat.ofInt UnpackedFloat.normalize
  split
  · rename_i hn
    exact absurd (Int.compare_eq_lt.mp hn) (by omega)
  · trivial
  · refine below_roundWithAccuracy (by omega) _ _ ?_
    have hshift := log2_shiftLeft_le n (0 - Format.binary64.targetExponent (totalExponent n 0)).toNat
    simp only [totalExponent, Int.toNat_natCast] at h hshift ⊢
    omega

/-! ## Packing -/

theorem exponentBias_binary64 : Format.binary64.exponentBias = 1023 := rfl

/-- An exponent that is not all ones is below 2047. -/
theorem unpackExponent_toNat_lt {b : BitVec Format.binary64.numBits} (h : unpackExponent b ≠ -1#_) :
    (unpackExponent b).toNat < 2047 := by
  have hlt : (unpackExponent b).toNat < 2048 := (unpackExponent b).isLt
  have hne : (unpackExponent b).toNat ≠ 2047 := fun hb => h (BitVec.eq_of_toNat_eq hb)
  omega

/-- An exponent below 2047 is not all ones, so the bits are those of a finite number. -/
theorem unpackExponent_ne {b : BitVec Format.binary64.numBits} (h : (unpackExponent b).toNat < 2047) :
    unpackExponent b ≠ -1#_ := by
  intro hb
  rw [hb] at h
  exact absurd h (by decide)

/-- The exponent of an unpacked double. -/
theorem exponent_le_of_unpack {b : BitVec Format.binary64.numBits} {s : Sign} {m : Nat} {e : Int} {hm : 0 < m}
    (h : UnpackedFloat.unpack Format.binary64 b = .finite s m e hm) : e ≤ 971 := by
  have hbias := exponentBias_binary64
  simp only [UnpackedFloat.unpack] at h
  split at h
  · split at h <;> cases h
  · rename_i hb
    have hlt := unpackExponent_toNat_lt hb
    split at h
    · rename_i hzero
      have hfield : (unpackExponent b).toNat = 0 := by rw [hzero]; rfl
      split at h <;> cases h
      omega
    · cases h
      omega

/-- The exponent field of a finite double bounds it. -/
theorem below_unpack {b : BitVec Format.binary64.numBits} (h : (unpackExponent b).toNat < 2047) :
    Below ((unpackExponent b).toNat - 1022) (UnpackedFloat.unpack Format.binary64 b) := by
  have hbias := exponentBias_binary64
  simp only [UnpackedFloat.unpack]
  rw [if_neg (unpackExponent_ne h)]
  split
  · rename_i hzero
    split
    · trivial
    · have hlog : (unpackMantissa b).toNat.log2 ≤ 51 := log2_toNat_le _
      simp only [Below, totalExponent, hzero, BitVec.toNat_zero]
      omega
  · have hlog : (1#1 ++ unpackMantissa b).toNat.log2 ≤ 52 := log2_toNat_le _
    simp only [Below, totalExponent]
    omega

/-- A double whose exponent field is neither the least nor the greatest has 53 bits. -/
theorem normal_unpack {b : BitVec Format.binary64.numBits} (hpos : 0 < (unpackExponent b).toNat)
    (h : (unpackExponent b).toNat < 2047) :
    Normal ((unpackExponent b).toNat - 1022) (UnpackedFloat.unpack Format.binary64 b) := by
  have hbias := exponentBias_binary64
  have hsubnormal : unpackExponent b ≠ 0#_ := by
    intro hb
    rw [hb] at hpos
    exact absurd hpos (by decide)
  have hlog : (1#1 ++ unpackMantissa b).toNat.log2 = 52 := by
    refine le_antisymm (log2_toNat_le _) ?_
    have hle : 2 ^ 52 ≤ (1#1 ++ unpackMantissa b).toNat := by
      rw [BitVec.toNat_append]
      exact Nat.left_le_or
    rw [← Nat.log2_two_pow (n := 52)]
    exact log2_mono hle
  simp only [UnpackedFloat.unpack]
  rw [if_neg (unpackExponent_ne h), if_neg hsubnormal]
  refine ⟨hlog, ?_⟩
  rw [totalExponent, hlog]
  omega

/-- The exponent field of a number within the range of doubles, when packed. -/
theorem unpackExponent_pack (s : Sign) {m : Nat} {e : Int} (hm : 0 < m) (he : e ≤ 971) :
    (unpackExponent (UnpackedFloat.pack Format.binary64 (.finite s m e hm))).toNat =
      if m.log2 = 52 then (e + 1075).toNat else 0 := by
  have hbias := exponentBias_binary64
  have hbits : Format.binary64.mantissaBits = 53 := rfl
  simp only [UnpackedFloat.pack]
  rw [if_neg (by omega)]
  by_cases hlog : m.log2 = 52
  · rw [if_pos (by omega), if_pos hlog, unpackExponent_packComponents, BitVec.toNat_ofNat, Nat.mod_eq_of_lt (by omega)]
    omega
  · rw [if_neg (by omega), if_neg hlog, unpackExponent_packComponents]
    rfl

/-- A number within the range of doubles is packed as a finite one, that is not larger unless it is tiny. -/
theorem below_unpack_pack (s : Sign) {m : Nat} {e : Int} (hm : 0 < m) (he : e ≤ 971) :
    Below (max (totalExponent m e) (-1000))
      (UnpackedFloat.unpack Format.binary64 (UnpackedFloat.pack Format.binary64 (.finite s m e hm))) := by
  have hfield := unpackExponent_pack s hm he
  refine (below_unpack ?_).mono ?_
  · rw [hfield]
    split <;> omega
  · rw [hfield, totalExponent]
    split <;> omega

/-! ## Bounds on doubles -/

/-- A finite double below `2 ^ k`. -/
structure UpTo (k : Int) (x : Float) : Prop where
  below : Below k x.toModel.unpack

/-- A double of 53 bits from `2 ^ (l - 1)` up. -/
structure From (l : Int) (x : Float) : Prop where
  normal : Normal l x.toModel.unpack

theorem UpTo.mono {k l : Int} (hkl : k ≤ l) {x : Float} (h : UpTo k x) : UpTo l x := ⟨h.below.mono hkl⟩

theorem UpTo.isFinite {k : Int} {x : Float} (h : UpTo k x) : x.isFinite = true := h.below.isFinite

theorem From.mono {k l : Int} (hkl : k ≤ l) {x : Float} (h : From l x) : From k x := ⟨h.normal.mono hkl⟩

/-- Packing keeps the bound on a number well within the range. -/
theorem Below.pack {k : Int} (hk : -1000 ≤ k) (hk' : k ≤ 900) {u : UnpackedFloat} (h : Below k u) :
    UpTo k (.ofModel (Float.Model.pack u)) := by
  refine ⟨?_⟩
  cases u with
  | zero s => cases s <;> exact trivial
  | finite s m e hm =>
    simp only [Below, totalExponent] at h
    refine (below_unpack_pack s hm (by omega)).mono ?_
    rw [totalExponent]
    omega
  | _ => exact h.elim

/-- Packing keeps the bound on a number of 53 bits within the range. -/
theorem Normal.pack {l k : Int} (hl : -1000 ≤ l) (hk : k ≤ 1024) {u : UnpackedFloat} (h : Normal l u)
    (hb : Below k u) : From l (.ofModel (Float.Model.pack u)) := by
  refine ⟨?_⟩
  cases u with
  | finite s m e hm =>
    obtain ⟨hlog, hl'⟩ := h
    rw [totalExponent] at hl'
    rw [Below, totalExponent] at hb
    have hfield := unpackExponent_pack s hm (e := e) (by omega)
    rw [if_pos hlog] at hfield
    have hnormal := normal_unpack (b := UnpackedFloat.pack Format.binary64 (.finite s m e hm)) (by omega) (by omega)
    exact hnormal.mono (by omega)
  | _ => exact h.elim

/-- The negative of a finite double is finite. -/
theorem isFinite_neg {x : Float} (h : x.isFinite = true) : (-x).isFinite = true := by
  have hneg : (-x).isFinite = (Float.Model.pack x.toModel.unpack.neg).unpack.isFinite := rfl
  have hx : x.toModel.unpack.isFinite = true := h
  rw [hneg]
  cases hu : x.toModel.unpack with
  | zero s => cases s <;> rfl
  | finite s m e hm => exact (below_unpack_pack (-s) hm (exponent_le_of_unpack hu)).isFinite
  | _ => rw [hu] at hx; cases hx

/-- The product of two bounded doubles is bounded, as long as the bound does not run over. -/
theorem UpTo.mul {k l : Int} (hk : -1000 ≤ k + l) (hk' : k + l + 1 ≤ 900) {x y : Float} (hx : UpTo k x)
    (hy : UpTo l y) : UpTo (k + l + 1) (x * y) :=
  (below_mul hk hx.below hy.below).pack (by omega) hk'

/-- The quotient of a bounded double by one that is bounded from below is bounded, as long as the bound does not run over. -/
theorem UpTo.div {k l : Int} (hk : -1000 ≤ k - l + 1) (hk' : k - l + 2 ≤ 900) {x y : Float} (hx : UpTo k x)
    (hy : From l y) : UpTo (k - l + 2) (x / y) :=
  (below_div hk hx.below hy.normal).pack (by omega) hk'

instance (l : Int) (u : UnpackedFloat) : Decidable (Normal l u) :=
  match u with
  | .finite _ m e _ => inferInstanceAs (Decidable (m.log2 = 52 ∧ l ≤ totalExponent m e))
  | .zero _ => inferInstanceAs (Decidable False)
  | .infinity _ => inferInstanceAs (Decidable False)
  | .notANumber => inferInstanceAs (Decidable False)

instance (l : Int) (x : Float) : Decidable (From l x) :=
  decidable_of_iff (Normal l x.toModel.unpack) ⟨.mk, From.normal⟩

/-! ## Multiples of powers of ten -/

/-- A multiple of a power of ten that is not formed from two doubles is one product, rounded. -/
theorem ofScientific_eq {n p : Nat} (hn : n ≠ 0) (hp : p ≤ 308) (hslow : ¬ (n < 2 ^ 53 ∧ p ≤ 22)) :
    Float.ofScientific n false p = .ofModel (Float.Model.pack
      (roundWithAccuracy Format.binary64 .positive ((n <<< 53) * 10 ^ p) (-53 + 0) .exact)) := by
  have hbits : (2 : Int) ^ Format.binary64.exponentBits = 2048 := rfl
  have hproduct : UnpackedFloat.ofScientific Format.binary64 n (Int.ofNat p) =
      roundWithAccuracy Format.binary64 .positive ((n <<< 53) * 10 ^ p) (-53 + 0) .exact := by
    rw [UnpackedFloat.ofScientific, dif_neg hn, if_neg (by simp only [Int.ofNat_eq_natCast]; omega),
      if_neg (by simp only [Int.ofNat_eq_natCast]; omega), if_pos (by simp only [Int.ofNat_eq_natCast]; omega)]
    rfl
  rw [Float.ofScientific, dif_neg hslow]
  exact congrArg (fun u => Float.ofModel (Float.Model.pack u)) hproduct

/-- The powers of ten that a double holds exactly are at least one. -/
theorem from_powerOfTen_small : ∀ n ≤ 22, From 1 (Decimal.powerOfTen n) := by decide +kernel

theorem from_powerOfTen_greatest : From 1000 (Decimal.powerOfTen 308) := by decide +kernel

/-- The powers of ten among the doubles are not below one. -/
theorem from_powerOfTen {n : Nat} (h : n ≤ 308) : From 1 (Decimal.powerOfTen n) := by
  by_cases hsmall : n ≤ 22
  · exact from_powerOfTen_small n hsmall
  by_cases hgreatest : n = 308
  · -- the bound on the rounding of this one would exceed the range
    rw [hgreatest]
    exact from_powerOfTen_greatest.mono (by decide)
  · have hlower : 2 ^ 53 ≤ (1 <<< 53) * 10 ^ n := Nat.le_mul_of_pos_right _ (Nat.pow_pos (by decide))
    have hupper : (1 <<< 53) * 10 ^ n < 2 ^ 1073 := by
      calc (1 <<< 53) * 10 ^ n ≤ (1 <<< 53) * 10 ^ 307 :=
            Nat.mul_le_mul_left _ (Nat.pow_le_pow_right (by decide) (by omega))
        _ < 2 ^ 1073 := by decide +kernel
    have hne : (1 <<< 53) * 10 ^ n ≠ 0 := (Nat.lt_of_lt_of_le (by decide) hlower).ne'
    have hlow := (Nat.le_log2 hne).mpr hlower
    have hhigh := (Nat.log2_lt hne).mpr hupper
    rw [Decimal.powerOfTen, ofScientific_eq (by decide) h (fun hslow => hsmall hslow.2)]
    generalize (1 <<< 53) * 10 ^ n = m at *
    refine Normal.pack (l := 1) (k := 1020 + 1) (by decide) (by decide) ?_ ?_
    · exact normal_roundWithAccuracy (by decide) _ _ (by omega) (by rw [totalExponent]; omega)
    · exact below_roundWithAccuracy (by decide) _ _ (by rw [totalExponent]; omega)

theorem upTo_one : UpTo 1 (Float.ofBits 0x3FF0000000000000) := by
  have hone : totalExponent (2 ^ 52) (-52) ≤ 1 := by decide
  exact ⟨hone⟩

/-- A number of 64 bits is finite as a double. -/
theorem upTo_ofScientific {n : Nat} (h : n < 2 ^ 64) : UpTo 70 (Float.ofScientific n false 0) := by
  rcases Nat.eq_zero_or_pos n with rfl | hn
  · exact ⟨trivial⟩
  have hlog := (Nat.log2_lt hn.ne').mpr h
  by_cases hfast : n < 2 ^ 53
  · have hproduct : Float.ofScientific n false 0 = n.toUInt64.toFloat * Float.ofBits 0x3FF0000000000000 := by
      rw [Float.ofScientific, dif_pos ⟨hfast, by decide⟩]
      rfl
    have hvalue : n.toUInt64.toNat = n := Nat.mod_eq_of_lt h
    have hword : UpTo 65 n.toUInt64.toFloat := by
      refine Below.pack (k := 65) (by decide) (by decide) (below_ofNat (k := 64) (by decide) ?_)
      rw [hvalue, totalExponent]
      omega
    rw [hproduct]
    exact (hword.mul (by decide) (by decide) upTo_one).mono (by decide)
  · have hshift : (n <<< 53) * 10 ^ 0 = n * 2 ^ 53 := by rw [Nat.pow_zero, Nat.mul_one, Nat.shiftLeft_eq]
    have hlt := (Nat.log2_lt (n := n * 2 ^ 53) (k := 117) (by omega)).mpr (by omega)
    rw [ofScientific_eq hn.ne' (by decide) (fun hslow => hfast hslow.1), hshift]
    generalize n * 2 ^ 53 = m at *
    refine Below.pack (k := 69 + 1) (by decide) (by decide) (below_roundWithAccuracy (by decide) _ _ ?_)
    rw [totalExponent]
    omega

end Double

namespace Decimal

open Double

/-- However far the double of a word is scaled down, it stays finite: each division by `10 ^ 308` keeps the bound. -/
theorem upTo_shrink {x : Float} (h : UpTo 70 x) (places : Nat) : UpTo 71 (shrink x places) := by
  induction x, places using shrink.induct with
  | case1 x places hp =>
    rw [shrink, if_pos hp]
    exact (h.div (by decide) (by decide) (from_powerOfTen hp)).mono (by decide)
  | case2 x places hp hx =>
    rw [shrink, if_neg hp, if_pos hx]
    exact h.mono (by decide)
  | case3 x places hp hx ih =>
    rw [shrink, if_neg hp, if_neg hx]
    exact ih ((h.div (by decide) (by decide) from_powerOfTen_greatest).mono (by decide))

/-- A decimal of one word scales to a finite double, if to any. -/
theorem isFinite_of_scaled? {d : Decimal} (hd : d.coefficient < 2 ^ 64) {x : Float} (h : d.scaled? = some x) :
    x.isFinite = true := by
  have hmagnitude : ∀ y, d.scaledMagnitude? = some y → y.isFinite = true := by
    intro y hy
    unfold scaledMagnitude? at hy
    dsimp only at hy
    split at hy
    · cases hy
      rfl
    · split at hy
      · cases hy
        exact (upTo_shrink (upTo_ofScientific hd) _).isFinite
      · split at hy
        · cases hy
        · split at hy
          · rename_i hfinite
            cases hy
            exact hfinite
          · cases hy
  obtain ⟨y, hy, rfl⟩ := Option.map_eq_some_iff.mp h
  split
  · exact isFinite_neg (hmagnitude y hy)
  · exact hmagnitude y hy

/-- A number of 64 bits is written with at most twenty digits. -/
theorem length_digits_le {n : Nat} (h : n < 2 ^ 64) : (digits n).length ≤ 20 :=
  (Nat.length_toDigits_le_iff (by decide) (by decide)).mpr (h.trans (by decide))

/-- An integer of 64 bits is finite as a double. -/
theorem isFinite_toFloat {n : Nat} (h : n < 2 ^ 64) (negative : Bool) :
    (toFloat ⟨negative, n, 0⟩).isFinite = true := by
  have hmagnitude : (magnitude ⟨negative, n, 0⟩).isFinite = true := by
    have hlength := length_digits_le h
    have hpoint : point ⟨negative, n, 0⟩ = (digits n).length := by rw [point, Int.add_zero]
    unfold magnitude
    dsimp only
    split
    · rfl
    · rw [if_neg (by omega), if_neg (by omega)]
      exact (upTo_ofScientific h).isFinite
  unfold toFloat
  split
  · exact isFinite_neg hmagnitude
  · exact hmagnitude

end Decimal

end DefiComposer
