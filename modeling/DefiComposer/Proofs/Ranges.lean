import DefiComposer.Proofs.Parameters
import DefiComposer.Proofs.Runs
import DefiComposer.Proofs.Unordered

/-!
# Ranges: which numbers pass the check of a parameter

The check of a parameter refuses a number that is below the least one or above the greatest one, and a NaN is neither. So a
number that passes is between the bounds exactly when it can be compared with them (`Parameter.check_comparable_iff`). The
bounds of all kinds are numbers, so the numbers that are stored from raw input are between the bounds of their parameter,
except for the one that a text spells as a word (`Store.numbers_in_range`).
-/

namespace DefiComposer

/-! ## The check of a number -/

namespace Parameter

variable {d : Parameter} {x : Float}

/-- A number is between the declared bounds, which belong to the range. -/
structure InRange (d : Parameter) (x : Float) : Prop where
  minimum : ∀ m, d.constraints.minimum = some m → m ≤ x
  maximum : ∀ m, d.constraints.maximum = some m → x ≤ m

/-- A number can be compared with the declared bounds: neither it nor a bound is a NaN. -/
def Comparable (d : Parameter) (x : Float) : Prop :=
  ∀ m, d.constraints.minimum = some m ∨ d.constraints.maximum = some m → x.isNaN = false ∧ m.isNaN = false

/-- What is between the bounds can be compared with them. -/
theorem InRange.comparable (h : d.InRange x) : d.Comparable x := by
  rintro m (hm | hm)
  · exact (Double.isNaN_of_le (h.minimum m hm)).symm
  · exact Double.isNaN_of_le (h.maximum m hm)

/-- The check passes exactly what is neither below the minimum nor above the maximum. -/
theorem checkRange_eq_ok_iff : d.checkRange x = .ok () ↔
    (∀ m, d.constraints.minimum = some m → ¬ x < m) ∧ ∀ m, d.constraints.maximum = some m → ¬ m < x := by
  cases hmin : d.constraints.minimum with
  | none =>
    cases hmax : d.constraints.maximum with
    | none => simp [checkRange, hmin, hmax]
    | some greatest => simp [checkRange, hmin, hmax]
  | some least =>
    cases hmax : d.constraints.maximum with
    | none => simp [checkRange, hmin, hmax]
    | some greatest => by_cases hlt : x < least <;> simp [checkRange, hmin, hmax, hlt]

/-- A number passes its check exactly when numbers are wanted and it passes that of the range. -/
theorem check_number_eq_ok_iff : d.check (.number x) = .ok () ↔ d.type = .number ∧ d.checkRange x = .ok () := by
  by_cases ht : d.type = .number
  · simp [check, ParameterValue.isEmpty, ParameterValue.type?, ht]
  · have hne : some ParameterType.number ≠ some d.type := fun h => ht (Option.some.inj h).symm
    simp [check, ParameterValue.isEmpty, ParameterValue.type?, ht, Ne.symm ht]

/-- What can be compared with a bound and is not below it is at least the bound. -/
theorem check_comparable_iff :
    d.check (.number x) = .ok () ∧ d.Comparable x ↔ d.type = .number ∧ d.InRange x := by
  rw [check_number_eq_ok_iff, checkRange_eq_ok_iff]
  simp only [Double.not_lt_iff]
  constructor
  · rintro ⟨⟨ht, hmin, hmax⟩, hc⟩
    refine ⟨ht, ⟨fun m hm => ?_, fun m hm => ?_⟩⟩
    · obtain ⟨hx, hb⟩ := hc m (Or.inl hm)
      exact (hmin m hm).resolve_right (by rw [hx, hb]; decide)
    · obtain ⟨hx, hb⟩ := hc m (Or.inr hm)
      exact (hmax m hm).resolve_right (by rw [hx, hb]; decide)
  · rintro ⟨ht, h⟩
    exact ⟨⟨ht, fun m hm => Or.inl (h.minimum m hm), fun m hm => Or.inl (h.maximum m hm)⟩, h.comparable⟩

end Parameter

/-! ## Numbers from raw input -/

/-- The numbers that a kind declares are bounded on both sides, by numbers. -/
theorem Kind.bounded (kind : Kind) : ∀ d ∈ kind.template.parameters, d.type = .number →
    d.constraints.minimum.any (!·.isNaN) = true ∧ d.constraints.maximum.any (!·.isNaN) = true := by
  cases kind <;> decide

/-- A declared number can be compared with its bounds exactly when it is not a NaN. -/
theorem Kind.comparable_iff {kind : Kind} {d : Parameter} (hd : d ∈ kind.template.parameters) (ht : d.type = .number)
    {x : Float} : d.Comparable x ↔ x.isNaN = false := by
  obtain ⟨hmin, hmax⟩ := kind.bounded d hd ht
  obtain ⟨least, hleast, hl⟩ := (Option.any_eq_true _ _).mp hmin
  obtain ⟨greatest, hgreatest, hg⟩ := (Option.any_eq_true _ _).mp hmax
  rw [Bool.not_eq_true'] at hl hg
  constructor
  · intro h
    exact (h least (Or.inl hleast)).1
  · rintro hx m (hm | hm)
    · rw [hleast] at hm
      cases hm
      exact ⟨hx, hl⟩
    · rw [hgreatest] at hm
      cases hm
      exact ⟨hx, hg⟩

/-- Raw input spells a NaN: it is a text that does, between blanks. -/
def Json.SpellsNaN (raw : Json) : Prop := ∃ s, raw = .string s ∧ DefiComposer.SpellsNaN (Text.trim s.toList)

/-- Raw input gives a NaN exactly when it spells one. -/
theorem ParameterValue.isNaN_of_ofJson {type : ParameterType} {raw : Json} {x : Float}
    (h : ofJson type raw = .ok (.number x)) : x.isNaN = true ↔ raw.SpellsNaN := by
  cases raw with
  | string text =>
    have hspells : (Json.string text).SpellsNaN ↔ DefiComposer.SpellsNaN (Text.trim text.toList) := by
      simp [Json.SpellsNaN]
    rw [hspells]
    cases type with
    | number =>
      simp only [ofJson, ofText] at h
      split at h
      · cases h
      split at h
      · rename_i y hy
        cases h
        exact isNaN_of_readFloat? hy
      · cases h
    | boolean =>
      simp only [ofJson, ofText] at h
      split at h
      · cases h
      split at h
      · cases h
      split at h <;> cases h
    | _ => cases h
  | number n =>
    simp only [ofJson] at h
    split at h
    · split at h
      · rename_i y hy
        cases h
        refine iff_of_false (Bool.eq_false_iff.mp (Json.Number.isNaN_of_toFloat? hy)) ?_
        rintro ⟨text, htext, -⟩
        cases htext
      · cases h
    · cases h
  | bool b =>
    simp only [ofJson] at h
    split at h <;> cases h
  | _ => cases h

namespace Store

variable {s : Store} {now : Timestamp} {id : PrimitiveId} {parameter : String} {raw : Json}

/-- A value that is answered was read from the input, and is stored for the primitive. -/
theorem setParameterFromJson_eq_ok {value : ParameterValue}
    (h : (s.setParameterFromJson now id parameter raw).1 = .ok value) :
    ∃ p, s.composition.primitive? id = some p ∧ readParameter s.composition id parameter raw = .ok value ∧
      (s.setParameterFromJson now id parameter raw).2.composition.primitive? id =
        some { p with parameters := p.parameters.insert parameter value } := by
  obtain ⟨p, hp, hread, hafter⟩ := setParameterFromJson_of_ok h
  refine ⟨p, hp, hread, ?_⟩
  rw [hafter]
  exact OrderedMap.get?_insert_self _ _ _

/-- A lending pool alone. -/
def onePool : Store := (Store.new .zero .epoch "Rates" "").run [(.epoch, .addPrimitive .lendingPool default)]

/-- Not all that passes is between the bounds: the interest rate of a pool, which goes from zero to a hundred, takes a NaN, and
the word for it is stored as one. -/
theorem nan_passes :
    (¬ ∀ (d : Parameter) (x : Float), d.check (.number x) = .ok () → d.InRange x) ∧
      ¬ ∀ (s : Store) (now : Timestamp) (id : PrimitiveId) (parameter : String) (raw : Json) (x : Float) (p : Primitive)
        (d : Parameter), (s.setParameterFromJson now id parameter raw).1 = .ok (.number x) →
          s.composition.primitive? id = some p → p.kind.template.parameter? parameter = some d → d.InRange x := by
  have hrate : Kind.lendingPool.template.parameter? "interestRate" =
      some (Template.amount "interestRate" "Interest Rate" "Annual interest rate for borrowing (in percentage)" 5 0 100) :=
    rfl
  have hbelow : ¬ (0 : Float) ≤ 0 / 0 := by decide
  constructor
  · intro h
    exact hbelow ((h (Template.amount "" "" "" 5 0 100) (0 / 0) (by decide)).minimum 0 rfl)
  · intro h
    have hstored : (onePool.setParameterFromJson .epoch ⟨0⟩ "interestRate" (.string "nan")).1 = .ok (.number (0 / 0)) := by
      decide +kernel
    exact hbelow ((h onePool .epoch ⟨0⟩ _ _ _ _ _ hstored rfl hrate).minimum 0 rfl)

/-- A number passes the check of a parameter and can be compared with its bounds exactly when the parameter is a number and
the bounds hold. So of the numbers that a store takes from raw input all but one are between the bounds of their parameter:
the one is a NaN, which only a text that spells it gives. -/
theorem numbers_in_range (x : Float) :
    (∀ d : Parameter, d.check (.number x) = .ok () ∧ d.Comparable x ↔ d.type = .number ∧ d.InRange x) ∧
      ∀ (s : Store) (now : Timestamp) (id : PrimitiveId) (parameter : String) (raw : Json),
        (s.setParameterFromJson now id parameter raw).1 = .ok (.number x) →
          ∃ p d, s.composition.primitive? id = some p ∧ p.kind.template.parameter? parameter = some d ∧
            (s.setParameterFromJson now id parameter raw).2.composition.primitive? id =
              some { p with parameters := p.parameters.insert parameter (.number x) } ∧
            (d.InRange x ↔ ¬ raw.SpellsNaN) := by
  refine ⟨fun d => Parameter.check_comparable_iff, fun s now id parameter raw h => ?_⟩
  obtain ⟨p, hp, hread, hstored⟩ := setParameterFromJson_eq_ok h
  obtain ⟨d, hd, hraw, hcheck⟩ := readParameter_ok hp hread
  have hdeclared := (Kind.parameter?_eq_some_iff.mp hd).1
  have ht := (Parameter.check_number_eq_ok_iff.mp hcheck).1
  refine ⟨p, d, hp, hd, hstored, ?_⟩
  rw [← ParameterValue.isNaN_of_ofJson hraw, Bool.not_eq_true, ← Kind.comparable_iff hdeclared ht]
  exact ⟨Parameter.InRange.comparable, fun hc => (Parameter.check_comparable_iff.mp ⟨hcheck, hc⟩).2⟩

/-- The greatest rate, written with an exponent and a blank before it, is stored and is between the bounds. -/
theorem greatest_rate_in_range :
    (onePool.setParameterFromJson .epoch ⟨0⟩ "interestRate" (.string " 1e2")).1 = .ok (.number 100) ∧
      (Template.amount "interestRate" "Interest Rate" "Annual interest rate for borrowing (in percentage)" 5 0 100).InRange
        100 := by
  have hstored : (onePool.setParameterFromJson .epoch ⟨0⟩ "interestRate" (.string " 1e2")).1 = .ok (.number 100) := by
    decide +kernel
  obtain ⟨p, d, hp, hd, -, hrange⟩ := (numbers_in_range 100).2 onePool .epoch ⟨0⟩ "interestRate" (.string " 1e2") hstored
  cases hp
  cases hd
  refine ⟨hstored, hrange.mpr ?_⟩
  rintro ⟨text, htext, hspells⟩
  cases htext
  rw [spellsNaN_iff] at hspells
  exact absurd hspells (by decide)

end Store

end DefiComposer
