import DefiComposer.Json.Parser
import DefiComposer.Json.Printer
import Mathlib.Data.List.Basic

/-!
# JSON numbers: what the text of a number reads as

A number may be read as another decimal of the same digits: what follows the point counts as digits of the coefficient.
`Number.reread` is what the text of a number reads as, wherever the text stands, as long as nothing follows that would
continue it (`Json.number?_text`). Integers of 64 bits are read as themselves (`Json.Number.reread_integer`).

Every text of a number is that of a scan whose parts are digits, and the scan of such a text gives the parts back
(`Decimal.Scan.scan_text`); so one equation serves positional digits, exponents and integers.
-/

namespace DefiComposer

/-! ## Digits -/

namespace Decimal

/-- A number is written in digits. -/
theorem isDigit_of_mem_digits {n : Nat} {c : Char} (h : c ∈ digits n) : isDigit c = true := by
  have hd : c.isDigit = true := Nat.isDigit_of_mem_toDigits (by decide) (by decide) h
  simpa [isDigit, Char.isDigit, Char.le_def] using hd

theorem all_isDigit_digits (n : Nat) : (digits n).all isDigit = true :=
  List.all_eq_true.mpr fun _ => isDigit_of_mem_digits

/-- A number is written with at least one digit. -/
theorem digits_ne_nil (n : Nat) : digits n ≠ [] := Nat.toDigits_ne_nil

/-- The digits of a number are read as the number. -/
theorem ofDigits_digits (n : Nat) : ofDigits (digits n) = n := by
  have h := Nat.ofDigitChars_ten_toDigits (n := n)
  rwa [Nat.ofDigitChars_eq_foldl] at h

/-- A text of ASCII digits, one at least, and the number they write. -/
structure Spells (s : List Char) (n : Nat) : Prop where
  nonempty : s ≠ []
  digits : ∀ c ∈ s, isDigit c = true
  value : ofDigits s = n

/-- Reading gives a number exactly when the text spells it. -/
theorem readNat?_eq_some_iff {s : List Char} {n : Nat} : readNat? s = some n ↔ Spells s n := by
  unfold readNat?
  constructor
  · intro h
    split at h
    · cases h
    · rename_i hs
      simp only [Bool.or_eq_true, List.isEmpty_iff, Bool.not_eq_true', not_or, Bool.not_eq_false, List.all_eq_true] at hs
      exact ⟨hs.1, hs.2, Option.some.inj h⟩
  · rintro ⟨hne, hdigits, rfl⟩
    have hall : s.all isDigit = true := List.all_eq_true.mpr hdigits
    simp [hne, hall]

/-- The digits of a number spell it. -/
theorem spells_digits (n : Nat) : Spells (digits n) n :=
  ⟨digits_ne_nil n, fun _ => isDigit_of_mem_digits, ofDigits_digits n⟩

/-- A number that is not zero does not begin with a zero. -/
theorem head?_digits {n : Nat} (h : 0 < n) : (digits n).head? ≠ some '0' := by
  induction n using Nat.strongRecOn with
  | ind n ih =>
    by_cases hn : n < 10
    · have hsmall : ∀ n < 10, 0 < n → (digits n).head? ≠ some '0' := by decide
      exact hsmall n hn h
    · rw [digits, Nat.toDigits_of_base_le (by decide) (by omega), List.head?_append_of_ne_nil _ Nat.toDigits_ne_nil]
      exact ih (n / 10) (by omega) (by omega)

/-! ## The text of a scan -/

/-- The fraction as it stands in a text. -/
def fractionText : Option (List Char) → List Char
  | some ds => '.' :: ds
  | none => []

/-- The exponent as it stands in a text. -/
def signedExponentText : Option (Bool × List Char) → List Char
  | some (negative, ds) => 'e' :: (if negative then '-' else '+') :: ds
  | none => []

/-- The text of the parts of an unsigned decimal. -/
def Scan.text (scan : Scan) : List Char :=
  scan.whole ++ fractionText scan.fraction ++ signedExponentText scan.exponent

/-- All parts consist of digits. -/
structure Scan.IsDigits (scan : Scan) : Prop where
  whole : scan.whole.all isDigit = true
  fraction : ∀ ds, scan.fraction = some ds → ds.all isDigit = true
  exponent : ∀ negative ds, scan.exponent = some (negative, ds) → ds.all isDigit = true

/-- What follows does not continue a number. -/
def EndsNumber (rest : List Char) : Prop := ∀ c ∈ rest.head?, isDigit c = false ∧ c ≠ '.' ∧ c ≠ 'e' ∧ c ≠ 'E'

theorem endsNumber_nil : EndsNumber [] := nofun

/-- The scan takes digits until something else stands there. -/
theorem spanDigits_append {ds rest : List Char} (hd : ds.all isDigit = true)
    (hr : ∀ c ∈ rest.head?, isDigit c = false) : spanDigits (ds ++ rest) = (ds, rest) := by
  have hall : ∀ c ∈ ds, isDigit c = true := List.all_eq_true.mp hd
  have htake : rest.takeWhile isDigit = [] := by
    cases rest with
    | nil => rfl
    | cons c rest => exact List.takeWhile_cons_of_neg (by simp [hr c rfl])
  have hdrop : rest.dropWhile isDigit = rest := by
    cases rest with
    | nil => rfl
    | cons c rest => exact List.dropWhile_cons_of_neg (by simp [hr c rfl])
  rw [spanDigits, List.takeWhile_append_of_pos hall, List.dropWhile_append_of_pos hall, htake, hdrop, List.append_nil]

/-- The exponent is had back from its text, as long as what follows does not go on with it. -/
theorem scanExponent_text {exponent : Option (Bool × List Char)} {rest : List Char}
    (hd : ∀ negative ds, exponent = some (negative, ds) → ds.all isDigit = true) (hr : EndsNumber rest) :
    scanExponent (signedExponentText exponent ++ rest) = (exponent, rest) := by
  cases exponent with
  | none =>
    cases rest with
    | nil => rfl
    | cons c rest =>
      obtain ⟨-, -, he, hE⟩ := hr c rfl
      exact if_neg (not_or.mpr ⟨he, hE⟩)
  | some e =>
    obtain ⟨negative, ds⟩ := e
    have hspan := spanDigits_append (hd negative ds rfl) fun c hc => (hr c hc).1
    cases negative <;> simp [signedExponentText, scanExponent, scanSign, hspan]

/-- The fraction is had back from its text, as long as what follows does not go on with it. -/
theorem scanFraction_text {fraction : Option (List Char)} {rest : List Char}
    (hd : ∀ ds, fraction = some ds → ds.all isDigit = true) (hr : ∀ c ∈ rest.head?, isDigit c = false ∧ c ≠ '.') :
    scanFraction (fractionText fraction ++ rest) = (fraction, rest) := by
  cases fraction with
  | none =>
    cases rest with
    | nil => rfl
    | cons c rest =>
      obtain ⟨-, hp⟩ := hr c rfl
      rw [fractionText, List.nil_append, scanFraction]
      rintro _ h
      exact hp (List.cons.inj h).1
  | some ds =>
    have hspan := spanDigits_append (hd ds rfl) fun c hc => (hr c hc).1
    simp [fractionText, scanFraction, hspan]

/-- The scan of its text gives the parts back, and leaves what follows. -/
theorem Scan.scan_text {scan : Scan} (hd : scan.IsDigits) {rest : List Char} (hr : EndsNumber rest) :
    Scan.scan (scan.text ++ rest) = (scan, rest) := by
  have hexponent : ∀ c ∈ (signedExponentText scan.exponent ++ rest).head?, isDigit c = false ∧ c ≠ '.' := by
    cases he : scan.exponent with
    | none => exact fun c hc => ⟨(hr c hc).1, (hr c hc).2.1⟩
    | some e => simp [signedExponentText, isDigit]
  have hfraction : ∀ c ∈ (fractionText scan.fraction ++ (signedExponentText scan.exponent ++ rest)).head?,
      isDigit c = false := by
    cases hf : scan.fraction with
    | none => exact fun c hc => (hexponent c hc).1
    | some ds => simp [fractionText, isDigit]
  simp only [Scan.scan, Scan.text, List.append_assoc, spanDigits_append hd.whole hfraction,
    scanFraction_text hd.fraction hexponent, scanExponent_text hd.exponent hr]

end Decimal

/-! ## The text of a number -/

namespace Json

open Decimal

/-- A scan is a number if each of its parts is there as the grammar wants it: digits before the point with no zero too many,
and digits behind the point and in the exponent. -/
theorem isNumber_of_parts {scan : Scan} (hwhole : scan.whole ≠ [])
    (hzero : scan.whole.length = 1 ∨ scan.whole.head? ≠ some '0') (hfraction : scan.fraction ≠ some [])
    (hexponent : ∀ negative, scan.exponent ≠ some (negative, [])) : isNumber scan = true := by
  obtain ⟨whole, fraction, exponent⟩ := scan
  simp only [isNumber, Bool.and_eq_true]
  refine ⟨⟨?_, ?_⟩, ?_⟩
  · match whole, hwhole, hzero with
    | [_], _, _ => rfl
    | c :: d :: rest, _, hzero => simpa using hzero
  · cases fraction with
    | none => rfl
    | some ds => simpa using hfraction
  · cases exponent with
    | none => rfl
    | some e =>
      obtain ⟨negative, ds⟩ := e
      simpa [Scan.exponentComplete] using hexponent negative

/-- The digits of an integer are a number. -/
theorem isNumber_digits (n : Nat) : isNumber ⟨digits n, none, none⟩ = true := by
  refine isNumber_of_parts (digits_ne_nil n) ?_ nofun nofun
  rcases Nat.eq_zero_or_pos n with rfl | hn
  · exact Or.inl rfl
  · exact Or.inr (head?_digits hn)

theorem all_isDigit_zeros (k : Nat) : (List.replicate k '0').all isDigit = true := by
  rw [List.all_replicate]
  split <;> rfl

/-- Positional digits of a number that is not zero are a number. -/
theorem exists_scan_positional {n : Nat} (hn : 0 < n) (point : Int) :
    ∃ scan : Scan, positionalText ['.', '0'] (digits n) point = scan.text ∧ scan.IsDigits ∧ isNumber scan = true := by
  have hdigits := all_isDigit_digits n
  have hne := digits_ne_nil n
  unfold positionalText
  split
  · -- a zero stands before the point
    refine ⟨⟨['0'], some (List.replicate (-point).toNat '0' ++ digits n), none⟩, ?_, ⟨rfl, ?_, nofun⟩, ?_⟩
    · simp [Scan.text, fractionText, signedExponentText]
    · rintro _ ⟨⟩
      rw [List.all_append, all_isDigit_zeros, hdigits]
      rfl
    · exact isNumber_of_parts nofun (Or.inl rfl) (by simp [hne]) nofun
  rename_i hpoint
  split
  · -- all digits stand before the point
    refine ⟨⟨digits n ++ List.replicate (point.toNat - (digits n).length) '0', some ['0'], none⟩, ?_, ⟨?_, ?_, nofun⟩,
      isNumber_of_parts ?_ (Or.inr ?_) nofun nofun⟩
    · simp [Scan.text, fractionText, signedExponentText]
    · rw [List.all_append, all_isDigit_zeros, hdigits]
      rfl
    · rintro _ ⟨⟩
      rfl
    · simp [hne]
    · rw [List.head?_append_of_ne_nil _ hne]
      exact head?_digits hn
  · -- the point stands between digits
    rename_i hlength
    obtain ⟨p, hp⟩ : ∃ p, point.toNat = p + 1 := ⟨point.toNat - 1, by omega⟩
    have hall := List.all_eq_true.mp hdigits
    refine ⟨⟨(digits n).take point.toNat, some ((digits n).drop point.toNat), none⟩, ?_, ⟨?_, ?_, nofun⟩,
      isNumber_of_parts ?_ (Or.inr ?_) ?_ nofun⟩
    · simp [Scan.text, fractionText, signedExponentText]
    · exact List.all_eq_true.mpr fun c hc => hall c (List.mem_of_mem_take hc)
    · rintro _ ⟨⟩
      exact List.all_eq_true.mpr fun c hc => hall c (List.mem_of_mem_drop hc)
    · simp [hne, hp]
    · rw [hp, List.head?_take, if_neg (Nat.succ_ne_zero p)]
      exact head?_digits hn
    · have hrest : (digits n).drop point.toNat ≠ [] := by
        rw [ne_eq, List.drop_eq_nil_iff]
        exact hlength
      simpa using hrest

/-- Digits with an exponent are a number. -/
theorem exists_scan_exponent (n : Nat) (point : Int) :
    ∃ scan : Scan, exponentText (digits n) point = scan.text ∧ scan.IsDigits ∧ isNumber scan = true := by
  have hdigits := all_isDigit_digits n
  have hpower := all_isDigit_digits (point - 1).natAbs
  have hne := digits_ne_nil (point - 1).natAbs
  cases hds : digits n with
  | nil => exact absurd hds (digits_ne_nil n)
  | cons d rest =>
    rw [hds, List.all_cons, Bool.and_eq_true] at hdigits
    refine ⟨⟨[d], if rest = [] then none else some rest, some (point - 1 < 0, digits (point - 1).natAbs)⟩, ?_,
      ⟨?_, ?_, ?_⟩, isNumber_of_parts nofun (Or.inl rfl) ?_ ?_⟩
    · cases rest <;> simp [exponentText, Scan.text, fractionText, signedExponentText]
    · simpa using hdigits.1
    · intro ds hf
      split at hf
      · cases hf
      · cases hf
        exact hdigits.2
    · rintro _ _ ⟨⟩
      exact hpower
    · split
      · nofun
      · rename_i hrest
        simpa using hrest
    · intro negative he
      exact hne (by simpa using congrArg (Option.map Prod.snd) he)

/-- The text of a number is that of a scan, with its sign. -/
theorem Number.exists_scan (n : Number) :
    ∃ negative : Bool, ∃ scan : Scan, n.text = (if negative then ['-'] else []) ++ scan.text ∧ scan.IsDigits ∧
      isNumber scan = true := by
  cases n with
  | integer n =>
    refine ⟨n < 0, ⟨digits n.natAbs, none, none⟩, ?_, ⟨all_isDigit_digits _, nofun, nofun⟩, isNumber_digits _⟩
    by_cases hn : n < 0 <;> simp [Number.text, integerText, hn, Scan.text, fractionText, signedExponentText]
  | decimal d =>
    have hmagnitude : ∃ scan : Scan, numberLayout.magnitude d = scan.text ∧ scan.IsDigits ∧ isNumber scan = true := by
      unfold Layout.magnitude
      split
      · exact ⟨⟨['0'], some ['0'], none⟩, rfl, ⟨rfl, by rintro _ ⟨⟩; rfl, nofun⟩, rfl⟩
      · rename_i hd
        dsimp only [numberLayout]
        split
        · exact exists_scan_positional (Nat.pos_of_ne_zero hd) d.point
        · exact exists_scan_exponent d.coefficient d.point
    obtain ⟨scan, htext, hdigits, hnumber⟩ := hmagnitude
    refine ⟨d.negative, scan, ?_, hdigits, hnumber⟩
    rw [Number.text, Layout.text, htext]
    cases d.negative <;> rfl

/-- What the text of a number reads as. -/
def Number.reread (n : Number) : Number :=
  match number? n.text with
  | some (read, _) => read
  | none => n

/-- A signed scan is read as the number it stands for. -/
theorem number?_scan (negative : Bool) {scan : Scan} (hdigits : scan.IsDigits) (hnumber : isNumber scan = true)
    {rest : List Char} (hr : EndsNumber rest) :
    number? ((if negative then ['-'] else []) ++ scan.text ++ rest) = some (Number.ofScan negative scan, rest) := by
  have hscan := Scan.scan_text hdigits hr
  cases negative with
  | true => simp [number?, hscan, hnumber]
  | false =>
    have hhead : ∀ s, scan.text ++ rest ≠ '-' :: s := by
      obtain ⟨whole, fraction, exponent⟩ := scan
      intro s hs
      cases whole with
      | nil => simp [isNumber] at hnumber
      | cons c whole =>
        have hc := hdigits.whole
        simp only [Scan.text, List.cons_append, List.cons.injEq] at hs
        rw [hs.1, List.all_cons] at hc
        cases hc
    simp only [Bool.false_eq_true, if_false, List.nil_append]
    unfold number?
    split
    rename_i heq
    split at heq
    · rename_i s hs
      exact absurd hs (hhead s)
    · cases heq
      simp [hscan, hnumber]

/-- The text of a number is read to its end, whatever follows, as long as it does not continue the number. -/
theorem number?_text (n : Number) {rest : List Char} (hr : EndsNumber rest) :
    number? (n.text ++ rest) = some (n.reread, rest) := by
  obtain ⟨negative, scan, htext, hdigits, hnumber⟩ := n.exists_scan
  have hread : n.reread = Number.ofScan negative scan := by
    have hself := number?_scan negative hdigits hnumber endsNumber_nil
    rw [List.append_nil, ← htext] at hself
    simp only [Number.reread, hself]
  rw [hread, htext, number?_scan negative hdigits hnumber hr]

/-- Integers of 64 bits are read as themselves. -/
theorem Number.reread_integer {n : Int} (h : fits64 n = true) : Number.reread (.integer n) = .integer n := by
  have hdigits : Scan.IsDigits ⟨digits n.natAbs, none, none⟩ := ⟨all_isDigit_digits _, nofun, nofun⟩
  have hself := number?_scan (n < 0) hdigits (isNumber_digits n.natAbs) endsNumber_nil
  have htext : Number.text (.integer n) =
      (if decide (n < 0) = true then ['-'] else []) ++ Scan.text ⟨digits n.natAbs, none, none⟩ ++ [] := by
    by_cases hn : n < 0 <;> simp [Number.text, integerText, hn, Scan.text, fractionText, signedExponentText]
  have hscan : Number.ofScan (n < 0) ⟨digits n.natAbs, none, none⟩ = .integer n := by
    have hvalue : (if decide (n < 0) = true then -(n.natAbs : Int) else n.natAbs) = n := by
      simp only [decide_eq_true_eq]
      split <;> omega
    have hzero : (decide (n < 0) && n.natAbs == 0) = false := by
      by_cases hn : n < 0
      · simp [hn]; omega
      · simp [hn]
    simp only [Number.ofScan, ofDigits_digits, hvalue, h, hzero]
    rfl
  rw [Number.reread, htext, hself]
  exact hscan

end Json

end DefiComposer
