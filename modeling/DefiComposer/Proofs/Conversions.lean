import DefiComposer.Proofs.Atomicity

/-!
# Conversions: raw input gives a value of the declared type, or none

A conversion that succeeds gives a value of the type it was asked for, or finds that nothing is there
(`ParameterValue.ofText_fits`, `ParameterValue.ofJson_fits`); so does a default, whatever literal is declared
(`Parameter.defaultValue_fits`). The check of a parameter speaks of the type exactly where something of another type is there
(`Parameter.check_eq_wrongType_iff`). So it never does after a conversion, and no raw input that a store is given for a
parameter is refused for its type by the check: what does not convert is refused before.
-/

namespace DefiComposer

/-! ## Values of a type -/

namespace ParameterValue

variable {type : ParameterType} {s : String} {raw : Json} {v : ParameterValue}

/-- A value may stand for a parameter of a type: it is of this type, or nothing is there. -/
def Fits (v : ParameterValue) (type : ParameterType) : Prop := v = unset ∨ v.type? = some type

/-- What a text gives is of the type, or the text is empty and gives nothing. -/
theorem ofText_fits (h : ofText type s = .ok v) : v.Fits type := by
  cases type with
  | string | enumeration | asset | address =>
    cases h
    exact Or.inr rfl
  | number =>
    simp only [ofText] at h
    split at h
    · cases h
      exact Or.inl rfl
    · split at h
      · cases h
        exact Or.inr rfl
      · cases h
  | boolean =>
    simp only [ofText] at h
    split at h
    · cases h
      exact Or.inl rfl
    · split at h
      · cases h
        exact Or.inr rfl
      · split at h
        · cases h
          exact Or.inr rfl
        · cases h

/-- What a JSON value gives is of the type, or the value gives nothing. -/
theorem ofJson_fits (h : ofJson type raw = .ok v) : v.Fits type := by
  cases raw with
  | null =>
    cases h
    exact Or.inl rfl
  | string s => exact ofText_fits h
  | number n =>
    simp only [ofJson] at h
    split at h
    · rename_i ht
      split at h
      · cases h
        exact Or.inr (congrArg some ht.symm)
      · cases h
    · cases h
  | bool b =>
    simp only [ofJson] at h
    split at h
    · rename_i ht
      cases h
      exact Or.inr (congrArg some ht.symm)
    · cases h
  | array _ | object _ | garbled => cases h

end ParameterValue

/-! ## The check of a converted value -/

namespace Parameter

variable {d : Parameter} {v : ParameterValue} {parameter : String} {type : ParameterType}

/-- A default is of the declared type, or there is none: a literal of another kind gives nothing, and a text is converted. -/
theorem defaultValue_fits (d : Parameter) : d.defaultValue.Fits d.type := by
  unfold defaultValue
  split
  · rename_i ht _
    exact Or.inr (congrArg some ht.symm)
  · rename_i ht _
    exact Or.inr (congrArg some ht.symm)
  · split
    · rename_i hv
      exact ParameterValue.ofText_fits hv
    · exact Or.inl rfl
  · exact Or.inl rfl

/-- No bound is about the type. -/
theorem checkRange_ne_wrongType (d : Parameter) (x : Float) : d.checkRange x ≠ .error (.wrongType parameter type) := by
  unfold checkRange
  split
  · split
    · simp
    · split <;> simp
  · split <;> simp
  · split <;> simp
  · simp

/-- The check of a tag never complains of a type. -/
theorem checkTag_ne_wrongType (d : Parameter) (tag : String) : d.checkTag tag ≠ .error (.wrongType parameter type) := by
  unfold checkTag
  split <;> simp

/-- The check is about the type exactly where something is there that does not fit it, and it names the parameter and the
type that it declares. -/
theorem check_eq_wrongType_iff :
    d.check v = .error (.wrongType parameter type) ↔
      (parameter = d.id ∧ type = d.type) ∧ v.isEmpty = false ∧ ¬ v.Fits d.type := by
  have hfits : v.isEmpty = false → (v.Fits d.type ↔ v.type? = some d.type) := by
    intro hv
    refine ⟨fun h => h.resolve_left ?_, Or.inr⟩
    rintro rfl
    cases hv
  unfold check
  split
  · -- nothing is there: at most it is missing
    rename_i hv
    simp only [hv, Bool.true_eq_false, false_and, and_false, iff_false]
    split <;> simp
  · rename_i hv
    rw [Bool.not_eq_true] at hv
    split
    · rename_i ht
      simp [hfits hv, hv, ht, eq_comm]
    · -- it is of the declared type, and the rules that are left are about its value
      rename_i ht
      rw [not_not] at ht
      simp only [hfits hv, ht, not_true_eq_false, and_false, iff_false]
      split
      · exact d.checkRange_ne_wrongType _
      · exact d.checkTag_ne_wrongType _
      · simp

/-- What fits the declared type is not refused for its type. -/
theorem check_ne_wrongType (h : v.Fits d.type) : d.check v ≠ .error (.wrongType parameter type) := by
  intro hc
  exact (check_eq_wrongType_iff.mp hc).2.2 h

end Parameter

namespace Store

/-- Raw input for a parameter is not refused by the check for its type. -/
theorem setParameterFromJson_ne_wrongType (s : Store) (now : Timestamp) (id : PrimitiveId) (parameter : String) (raw : Json)
    (named : String) (type : ParameterType) :
    (s.setParameterFromJson now id parameter raw).1 ≠ .error (.violation (.wrongType named type)) := by
  rw [setParameterFromJson_answer]
  intro h
  cases readParameter_eq_iff.mp h with
  | violated found declared converted refused =>
    exact Parameter.check_ne_wrongType (ParameterValue.ofJson_fits converted) refused

end Store

/-- Conversions keep to the declared type. What a JSON value or a text gives for a type is of this type, or nothing is there;
so is every default, whatever literal is declared. The check speaks of the type exactly where something is there that is not
of the declared one, so it does so neither of what raw input gives, nor of a default, nor to a store that is given raw
input. -/
theorem conversions_typed :
    (∀ type raw v, ParameterValue.ofJson type raw = .ok v → v = .unset ∨ v.type? = some type) ∧
      (∀ type s v, ParameterValue.ofText type s = .ok v → v = .unset ∨ v.type? = some type) ∧
      (∀ (d : Parameter) v named type, d.check v = .error (.wrongType named type) ↔
        (named = d.id ∧ type = d.type) ∧ v.isEmpty = false ∧ ¬ v.Fits d.type) ∧
      (∀ (d : Parameter) raw v named type, ParameterValue.ofJson d.type raw = .ok v →
        d.check v ≠ .error (.wrongType named type)) ∧
      (∀ (s : Store) now id parameter raw named type,
        (s.setParameterFromJson now id parameter raw).1 ≠ .error (.violation (.wrongType named type))) ∧
      ∀ d : Parameter, (d.defaultValue = .unset ∨ d.defaultValue.type? = some d.type) ∧
        ∀ named type, d.check d.defaultValue ≠ .error (.wrongType named type) := by
  refine ⟨?_, ?_, ?_, ?_, ?_, ?_⟩
  · exact fun _ _ _ h => ParameterValue.ofJson_fits h
  · exact fun _ _ _ h => ParameterValue.ofText_fits h
  · exact fun _ _ _ _ => Parameter.check_eq_wrongType_iff
  · exact fun _ _ _ _ _ h => Parameter.check_ne_wrongType (ParameterValue.ofJson_fits h)
  · exact fun s now id parameter raw => s.setParameterFromJson_ne_wrongType now id parameter raw
  · exact fun d => ⟨d.defaultValue_fits, fun _ _ => Parameter.check_ne_wrongType d.defaultValue_fits⟩

/-- A switch that is declared with a default that is none. -/
def looseSwitch : Parameter := ⟨"open", "Open", .boolean, "Whether deposits are taken", .text "perhaps", .presence⟩

/-- A word between blanks is read as a truth value and an empty text as none, and so is the default, which the check misses
but not for its type. A tag of the same looks is refused for its type; no conversion gives one. -/
theorem looseSwitch_typed :
    (ParameterValue.ofJson looseSwitch.type (.string " true ") = .ok (.boolean true) ∧
        ∀ named type, looseSwitch.check (.boolean true) ≠ .error (.wrongType named type)) ∧
      (ParameterValue.ofText looseSwitch.type "" = .ok .unset ∧
        (ParameterValue.unset = .unset ∨ ParameterValue.unset.type? = some .boolean)) ∧
      (looseSwitch.defaultValue = .unset ∧ looseSwitch.check looseSwitch.defaultValue = .error (.required "open")) ∧
      looseSwitch.check (.enumTag "true") = .error (.wrongType "open" .boolean) := by
  obtain ⟨-, htext, hcheck, hraw, -, -⟩ := conversions_typed
  have hword : ParameterValue.ofJson looseSwitch.type (.string " true ") = .ok (.boolean true) := by decide
  have hempty : ParameterValue.ofText looseSwitch.type "" = .ok .unset := by decide
  refine ⟨⟨hword, fun named type => hraw _ _ _ named type hword⟩, ⟨hempty, htext _ _ _ hempty⟩, by decide, ?_⟩
  refine (hcheck _ _ _ _).mpr ⟨⟨rfl, rfl⟩, by decide, ?_⟩
  rintro (h | h) <;> cases h

end DefiComposer
