import DefiComposer.Proofs.JsonNumbers
import DefiComposer.Proofs.Maps
import DefiComposer.Proofs.Words
import DefiComposer.Timestamp
import DefiComposer.Uuid
import Mathlib.Algebra.Group.Nat.Defs

/-!
# Written forms: identities and moments are read as they are written

The reader of identities takes several forms and that of moments is lenient, but what `Uuid.text` and `Timestamp.text` write
is read back without a loss: every hexadecimal digit, every year with or without a sign, every fraction of a second in the
fewest digits, the sixty-first second of a minute included.
-/

namespace DefiComposer

/-! ## Identities -/

namespace Uuid

/-- A digit is read as it is written. -/
theorem digit?_digitChar : ∀ d : Fin 16, digit? (digitChar d) = some d := by decide

theorem length_hyphened {ds : List Char} (h : ds.length = 32) : (hyphened '-' ds).length = 36 := by
  simp [hyphened, h]

/-- The groups of digits, joined again. -/
theorem groups_join (ds : List Char) :
    ds.take 8 ++ ((ds.drop 8).take 4 ++ ((ds.drop 12).take 4 ++ ((ds.drop 16).take 4 ++ ds.drop 20))) = ds := by
  have hdrop : ∀ n, (ds.drop n).take 4 ++ ds.drop (n + 4) = ds.drop n := by
    intro n
    rw [← List.drop_drop, List.take_append_drop]
  rw [hdrop 16, hdrop 12, hdrop 8, List.take_append_drop]

/-- Between the hyphens stand the digits. -/
theorem dropHyphens?_hyphened {ds : List Char} (h : ds.length = 32) : dropHyphens? (hyphened '-' ds) = some ds := by
  have hdrop : (hyphened '-' ds).take 8 ++ ((hyphened '-' ds).drop 9).take 4 ++ ((hyphened '-' ds).drop 14).take 4 ++
      ((hyphened '-' ds).drop 19).take 4 ++ (hyphened '-' ds).drop 24 = ds := by
    -- each cut falls on a hyphen, so it takes one group and nothing of the others
    simpa [hyphened, List.take_append, List.drop_append, h, List.drop_drop, List.drop_take] using groups_join ds
  simp only [dropHyphens?, hdrop, if_true]

/-- An identity is read as it is written. -/
theorem parse?_text (u : Uuid) : parse? u.text = some u := by
  have hlength : (u.digits.map digitChar).length = 32 := by rw [List.length_map, u.length_digits]
  have hread : ofDigits? (u.digits.map digitChar) = some u := by
    simp only [ofDigits?, mapM_of_forall fun d _ => digit?_digitChar d]
    exact dif_pos u.length_digits
  simp only [parse?, text, String.toList_ofList, length_hyphened hlength, dropHyphens?_hyphened hlength,
    Option.bind_some, hread]

end Uuid

/-! ## Moments -/

namespace Timestamp

/-- The digits of a number, filled up, are not fewer than the width. -/
theorem length_padded {width n : Nat} (hw : 0 < width) (h : n < 10 ^ width) : (padded width n).length = width := by
  have hle : (Decimal.digits n).length ≤ width := (Nat.length_toDigits_le_iff (by decide) hw).mpr h
  simp only [padded, List.length_append, List.length_replicate]
  omega

/-- A number with zeros in front is written in digits. -/
theorem all_isDigit_padded (width n : Nat) : (padded width n).all Decimal.isDigit = true := by
  simp only [padded, List.all_append, Json.all_isDigit_zeros, Decimal.all_isDigit_digits]
  rfl

theorem padded_ne_nil (width n : Nat) : padded width n ≠ [] := by
  simp [padded, Decimal.digits_ne_nil]

/-- Zeros in front do not count. -/
theorem ofDigits_padded (width n : Nat) : Decimal.ofDigits (padded width n) = n := by
  have hzeros : ∀ k, (List.replicate k '0').foldl (fun n c => 10 * n + (c.toNat - 48)) 0 = 0 := by
    intro k
    induction k with
    | zero => rfl
    | succ k ih => exact ih
  have hdigits := Decimal.ofDigits_digits n
  simp only [Decimal.ofDigits] at hdigits
  simp only [padded, Decimal.ofDigits, List.foldl_append, hzeros, hdigits]

/-- A number is read up to the width, or up to what is no digit. -/
theorem number?_append {width : Nat} {ds rest : List Char} (hne : ds ≠ []) (hd : ds.all Decimal.isDigit = true)
    (hw : ds.length = width ∨ ds.length ≤ width ∧ ∀ c ∈ rest.head?, Decimal.isDigit c = false) :
    number? width (ds ++ rest) = some (Decimal.ofDigits ds, rest) := by
  have htake : ((ds ++ rest).take width).takeWhile Decimal.isDigit = ds := by
    have hall : ∀ c ∈ ds, Decimal.isDigit c = true := List.all_eq_true.mp hd
    have hrest : (rest.take (width - ds.length)).takeWhile Decimal.isDigit = [] := by
      rcases hw with hw | ⟨-, hr⟩
      · simp [hw]
      · cases rest with
        | nil => simp
        | cons c rest =>
          cases width - ds.length with
          | zero => rfl
          | succ k => exact List.takeWhile_cons_of_neg (by simp [hr c rfl])
    rw [List.take_append, List.take_of_length_le (by omega), List.takeWhile_append_of_pos hall, hrest, List.append_nil]
  have hempty : ds.isEmpty = false := by simpa using hne
  simp [number?, htake, hempty]

/-- A filled-up number begins with a digit. -/
theorem exists_padded (width n : Nat) : ∃ c ds, padded width n = c :: ds ∧ Decimal.isDigit c = true := by
  cases hds : padded width n with
  | nil => exact absurd hds (padded_ne_nil width n)
  | cons c ds =>
    have hd := all_isDigit_padded width n
    rw [hds, List.all_cons, Bool.and_eq_true] at hd
    exact ⟨c, ds, rfl, hd.1⟩

/-- A digit is no blank, so trimming stops there. -/
theorem trimStart_of_isDigit {c : Char} (h : Decimal.isDigit c = true) (s : List Char) :
    Text.trimStart (c :: s) = c :: s :=
  List.dropWhile_cons_of_neg (by simp [Text.isBlank_of_isDigit h])

/-- A filled-up number is read, wherever it stands. -/
theorem field?_padded {width n : Nat} (hw : 0 < width) (h : n < 10 ^ width) (rest : List Char) :
    field? width (padded width n ++ rest) = some (n, rest) := by
  have hnumber : number? width (padded width n ++ rest) = some (Decimal.ofDigits (padded width n), rest) :=
    number?_append (padded_ne_nil width n) (all_isDigit_padded width n) (Or.inl (length_padded hw h))
  obtain ⟨c, ds, hds, hc⟩ := exists_padded width n
  rw [ofDigits_padded, hds, List.cons_append] at hnumber
  rw [field?, hds, List.cons_append, trimStart_of_isDigit hc, hnumber]

/-- A field of two digits is read back, whatever follows. -/
theorem field?_two {n : Nat} (h : n < 100) (rest : List Char) : field? 2 (padded 2 n ++ rest) = some (n, rest) :=
  field?_padded (by decide) h rest

/-- A year that begins with a digit has four of them. -/
theorem year?_of_isDigit {c : Char} (h : Decimal.isDigit c = true) (s : List Char) :
    year? (c :: s) = (number? 4 (c :: s)).map fun (n, rest) => ((n : Int), rest) := by
  unfold year?
  rw [trimStart_of_isDigit h]
  split <;> rename_i heq
  · obtain ⟨rfl, -⟩ := List.cons.inj heq
    cases h
  · obtain ⟨rfl, -⟩ := List.cons.inj heq
    cases h
  · rfl

/-- A year is read to the hyphen after it. -/
theorem year?_yearText (year : Int) (rest : List Char) :
    year? (yearText year ++ '-' :: rest) = some (year, '-' :: rest) := by
  have hread : ∀ width, (padded 4 year.natAbs).length ≤ width →
      number? width (padded 4 year.natAbs ++ '-' :: rest) = some (year.natAbs, '-' :: rest) := by
    intro width hw
    rw [number?_append (padded_ne_nil 4 year.natAbs) (all_isDigit_padded 4 year.natAbs)
      (Or.inr ⟨hw, by rintro c ⟨⟩; decide⟩), ofDigits_padded]
  have hsigned : (padded 4 year.natAbs).length ≤ (padded 4 year.natAbs ++ '-' :: rest).length := by simp
  unfold yearText
  split
  · rename_i hyear
    have hfour := hread 4 (Nat.le_of_eq (length_padded (by decide) (by omega)))
    obtain ⟨c, ds, hds, hc⟩ := exists_padded 4 year.natAbs
    rw [hds, List.cons_append] at hfour
    have hvalue : (year.natAbs : Int) = year := Int.natAbs_of_nonneg hyear.1
    rw [hds, List.cons_append, year?_of_isDigit hc, hfour]
    simp only [Option.map_some, hvalue]
  · rename_i hyear
    by_cases hneg : year < 0
    · have hminus : year? ('-' :: (padded 4 year.natAbs ++ '-' :: rest)) =
          (number? _ (padded 4 year.natAbs ++ '-' :: rest)).map fun (n, rest) => (-(n : Int), rest) := rfl
      have hvalue : -(year.natAbs : Int) = year := by omega
      rw [if_pos hneg, List.cons_append, hminus, hread _ hsigned]
      simp only [Option.map_some, hvalue]
    · have hplus : year? ('+' :: (padded 4 year.natAbs ++ '-' :: rest)) =
          (number? _ (padded 4 year.natAbs ++ '-' :: rest)).map fun (n, rest) => ((n : Int), rest) := rfl
      have hvalue : (year.natAbs : Int) = year := by omega
      rw [if_neg hneg, List.cons_append, hplus, hread _ hsigned]
      simp only [Option.map_some, hvalue]

/-- The fraction is read to the `Z` after it. -/
theorem fraction?_fractionText {nanosecond : Nat} (h : nanosecond < 1000000000) :
    fraction? (fractionText nanosecond ++ ['Z']) = some (nanosecond, ['Z']) := by
  have hread : ∀ width n, 0 < width → width ≤ 9 → n < 10 ^ width →
      fraction? ('.' :: padded width n ++ ['Z']) = some (n * Nat.pow 10 (9 - width), ['Z']) := by
    intro width n hw hle hn
    have hall : ∀ c ∈ padded width n, Decimal.isDigit c = true := List.all_eq_true.mp (all_isDigit_padded width n)
    have hlength := length_padded hw hn
    have htake : (padded width n ++ ['Z']).takeWhile Decimal.isDigit = padded width n := by
      rw [List.takeWhile_append_of_pos hall, List.takeWhile_cons_of_neg (by decide), List.append_nil]
    have hdrop : (padded width n ++ ['Z']).dropWhile Decimal.isDigit = ['Z'] := by
      rw [List.dropWhile_append_of_pos hall, List.dropWhile_cons_of_neg (by decide)]
    have hempty : (padded width n).isEmpty = false := by simpa using padded_ne_nil width n
    have hnine : (padded width n).take 9 = padded width n := List.take_of_length_le (by omega)
    simp only [List.cons_append, fraction?, htake, hdrop, hempty, hnine, ofDigits_padded, hlength, Bool.false_eq_true,
      if_false]
  unfold fractionText
  split
  · rename_i hzero
    rw [hzero]
    rfl
  split
  · rename_i hmillis
    rw [hread 3 _ (by decide) (by decide) (by omega)]
    simp only [Option.some.injEq, Prod.mk.injEq, and_true]
    show nanosecond / 1000000 * 1000000 = nanosecond
    omega
  split
  · rename_i hmicros
    rw [hread 6 _ (by decide) (by decide) (by omega)]
    simp only [Option.some.injEq, Prod.mk.injEq, and_true]
    show nanosecond / 1000 * 1000 = nanosecond
    omega
  · rw [hread 9 _ (by decide) (by decide) (by omega)]
    simp only [Option.some.injEq, Prod.mk.injEq, and_true]
    exact Nat.mul_one nanosecond

/-- A time in UTC is the local time. -/
theorem ofLocal?_zero (t : Timestamp) : ofLocal? t.day t.clock 0 = some t := by
  obtain ⟨day, ⟨hour, minute, second, nanosecond⟩, hday, hclock⟩ := t
  have hvalid := hclock
  simp only [Clock.isValid, Bool.and_eq_true, decide_eq_true_eq] at hvalid
  obtain ⟨⟨⟨hhour, hminute⟩, -⟩, -⟩ := hvalid
  have hminutes : (hour : Int) * 60 + minute - 0 = ((hour * 60 + minute : Nat) : Int) := by omega
  have hmod : (((hour * 60 + minute : Nat) : Int) % 1440).toNat = hour * 60 + minute := by omega
  have hhours : (hour * 60 + minute) / 60 = hour := by omega
  have hrest : (hour * 60 + minute) % 60 = minute := by omega
  have hday' : (if ((hour * 60 + minute : Nat) : Int) < 0 then day.previous
      else if 1440 ≤ ((hour * 60 + minute : Nat) : Int) then day.next else day) = day := by
    rw [if_neg (by omega), if_neg (by omega)]
  simp only [ofLocal?, hminutes, hday', hmod, hhours, hrest]
  exact dif_pos ⟨hday, hclock⟩

/-- No month has more than 31 days. -/
theorem daysInMonth_le (year : Int) (month : Nat) : daysInMonth year month ≤ 31 := by
  unfold daysInMonth
  split
  · split <;> decide
  · split <;> decide

/-- A moment is read as it is written. -/
theorem parse?_text (t : Timestamp) : parse? t.text = some t := by
  have hday := t.valid_day
  have hclock := t.valid_clock
  have hbounds := daysInMonth_le t.day.year t.day.month
  simp only [Day.isValid, Clock.isValid, Bool.and_eq_true, decide_eq_true_eq] at hday hclock
  have htext : t.text.toList = yearText t.day.year ++ '-' :: (padded 2 t.day.month ++ '-' :: (padded 2 t.day.day ++
      'T' :: (padded 2 t.clock.hour ++ ':' :: (padded 2 t.clock.minute ++ ':' :: (padded 2 t.clock.second ++
        (fractionText t.clock.nanosecond ++ ['Z'])))))) := by
    simp only [text, String.toList_ofList, List.append_assoc, List.cons_append]
  have hhyphen : ∀ s, mark? '-' ('-' :: s) = some s := fun _ => rfl
  have hcolon : ∀ s, mark? ':' (':' :: s) = some s := fun _ => rfl
  have hoffset : offset? ['Z'] = some (0, []) := by decide
  have hvalid : (t.day.isValid && t.clock.isValid && (Text.trimStart []).isEmpty) = true := by
    rw [t.valid_day, t.valid_clock]
    rfl
  -- one step for each reader, in the order of the text
  unfold parse?
  rw [htext]
  refine Option.bind_eq_some_iff.mpr ⟨_, year?_yearText _ _, ?_⟩
  refine Option.bind_eq_some_iff.mpr ⟨_, hhyphen _, Option.bind_eq_some_iff.mpr ⟨_, field?_two (by omega) _, ?_⟩⟩
  refine Option.bind_eq_some_iff.mpr ⟨_, hhyphen _, Option.bind_eq_some_iff.mpr ⟨_, field?_two (by omega) _, ?_⟩⟩
  refine Option.bind_eq_some_iff.mpr ⟨_, field?_two (by omega) _, ?_⟩
  refine Option.bind_eq_some_iff.mpr ⟨_, hcolon _, Option.bind_eq_some_iff.mpr ⟨_, field?_two (by omega) _, ?_⟩⟩
  refine Option.bind_eq_some_iff.mpr ⟨_, hcolon _, Option.bind_eq_some_iff.mpr ⟨_, field?_two (by omega) _, ?_⟩⟩
  refine Option.bind_eq_some_iff.mpr ⟨_, fraction?_fractionText hclock.2, ?_⟩
  refine Option.bind_eq_some_iff.mpr ⟨_, hoffset, ?_⟩
  exact (if_pos hvalid).trans (ofLocal?_zero t)

end Timestamp

end DefiComposer
