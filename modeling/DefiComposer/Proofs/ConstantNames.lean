import DefiComposer.Move.Module
import Mathlib

/-!
# Constant names: the parameter is told by the name of its constant

The name of a constant is in capitals, and an underscore says which of them were capitals before. `parameterOf` takes the
underscores out again: it reads what `constantChar` writes, one character after the other
(`parameterChars_constantChar`), so it gives back every parameter that has no underscore of its own and does not start with a
capital, and no two such parameters share a constant (`constantIdent_decodes`).
-/

namespace DefiComposer.Move

/-! ## Letters in capitals -/

/-- Nothing but the underscore becomes one. -/
theorem toUpper_ne_underscore {c : Char} (h : c ≠ '_') : c.toUpper ≠ '_' := by
  intro hupper
  have halpha : c.isAlpha = false := by
    rw [← Char.isUpper_toUpper_eq_isAlpha, hupper]
    decide
  have hlower : c.isLower = false := (Bool.or_eq_false_iff.mp halpha).2
  rw [Char.toUpper_eq_of_not_isLower (Bool.eq_false_iff.mp hlower)] at hupper
  exact h hupper

/-- What is no capital is had back from its capital. -/
theorem toLower_toUpper {c : Char} (h : c.isUpper = false) : c.toUpper.toLower = c := by
  rw [Char.toLower_toUpper_eq_toLower, Char.toLower_eq_of_not_isUpper (Bool.eq_false_iff.mp h)]

/-! ## Reading the name of a constant -/

/-- A name in which capitals alone set off the words: it has no underscore, and does not start with a capital. -/
structure IsCamelCase (name : String) : Prop where
  no_underscore : '_' ∉ name.toList
  start : name.toList.head?.all (fun c => !c.isUpper) = true

/-- The characters of the parameter whose constant has the given ones: what follows an underscore stays as it is and the
underscore goes, anything else becomes small. -/
def parameterChars : List Char → List Char
  | [] => []
  | '_' :: c :: rest => c :: parameterChars rest
  | c :: rest => c.toLower :: parameterChars rest

/-- The parameter whose constant has a name. -/
def parameterOf (constant : String) : String := String.ofList (parameterChars constant.toList)

/-- A character that is no underscore is read in small. -/
theorem parameterChars_cons {c : Char} (h : c ≠ '_') (rest : List Char) :
    parameterChars (c :: rest) = c.toLower :: parameterChars rest := by
  rw [parameterChars]
  rintro d rest rfl
  exact absurd rfl h

/-- What is written for a character reads as that character, whatever follows. -/
theorem parameterChars_constantChar {c : Char} (h : c ≠ '_') (rest : List Char) :
    parameterChars (constantChar c ++ rest) = c :: parameterChars rest := by
  cases hc : c.isUpper with
  | true => simp [constantChar, hc, parameterChars]
  | false =>
    have hchar : constantChar c = [c.toUpper] := if_neg (by simp [hc])
    rw [hchar, List.singleton_append, parameterChars_cons (toUpper_ne_underscore h), toLower_toUpper hc]

/-- What is written for a name without underscores reads as the name. -/
theorem parameterChars_flatMap {s : List Char} (h : '_' ∉ s) : parameterChars (s.flatMap constantChar) = s := by
  induction s with
  | nil => rfl
  | cons c s ih =>
    rw [List.mem_cons, not_or] at h
    rw [List.flatMap_cons, parameterChars_constantChar (Ne.symm h.1), ih h.2]

/-- Without a capital at its start a name is written character by character. -/
theorem toList_constantIdent {name : String} (h : name.toList.head?.all (fun c => !c.isUpper) = true) :
    (constantIdent name).toList = name.toList.flatMap constantChar := by
  unfold constantIdent
  split
  · rename_i hnil
    rw [hnil]
    rfl
  · rename_i c rest hcons
    rw [hcons] at h
    have hchar : constantChar c = [c.toUpper] := if_neg (by simpa using h)
    rw [String.toList_ofList, hcons, List.flatMap_cons, hchar, List.singleton_append]

/-- The parameter is read from the name of its constant. -/
theorem parameterOf_constantIdent {name : String} (h : IsCamelCase name) : parameterOf (constantIdent name) = name := by
  rw [parameterOf, toList_constantIdent h.start, parameterChars_flatMap h.no_underscore, String.ofList_toList]

/-- Nothing that is written for a character is a small letter. -/
theorem isLower_of_mem_constantChar {c d : Char} (h : d ∈ constantChar c) : d.isLower = false := by
  unfold constantChar at h
  split at h
  · rename_i hc
    rw [List.mem_cons, List.mem_singleton] at h
    rcases h with rfl | rfl
    · decide
    · exact Bool.eq_false_iff.mpr (Char.not_isLower_of_isUpper hc)
  · rw [List.mem_singleton.mp h]
    exact Char.isLower_toUpper_eq_false c

/-- No name of a constant holds a small letter. -/
theorem isLower_of_mem_constantIdent {name : String} {c : Char} (h : c ∈ (constantIdent name).toList) :
    c.isLower = false := by
  unfold constantIdent at h
  split at h
  · cases h
  · rename_i d rest _
    rw [String.toList_ofList] at h
    rcases List.mem_cons.mp h with rfl | h
    · exact Char.isLower_toUpper_eq_false d
    · obtain ⟨e, -, hc⟩ := List.mem_flatMap.mp h
      exact isLower_of_mem_constantChar hc

/-- The name of a constant has no small letter, and it tells the parameter: `parameterOf` gives back a parameter that has no
underscore and does not start with a capital, and two such parameters with one constant are one. -/
theorem constantIdent_decodes (name : String) :
    (∀ c ∈ (constantIdent name).toList, c.isLower = false) ∧
      (IsCamelCase name → parameterOf (constantIdent name) = name) ∧
      ∀ other, IsCamelCase name → IsCamelCase other → name ≠ other → constantIdent name ≠ constantIdent other := by
  refine ⟨fun _ => isLower_of_mem_constantIdent, parameterOf_constantIdent, fun other hname hother hne heq => hne ?_⟩
  rw [← parameterOf_constantIdent hname, heq, parameterOf_constantIdent hother]

/-- Three capitals in a row, a letter beyond ASCII and a digit; the other parameter differs in the case of one letter. -/
theorem maxAPY_decodes :
    IsCamelCase "maxAPYé2" ∧ IsCamelCase "maxAPyé2" ∧
      (∀ c ∈ (constantIdent "maxAPYé2").toList, c.isLower = false) ∧
      constantIdent "maxAPYé2" = "MAX_A_P_Yé2" ∧ parameterOf "MAX_A_P_Yé2" = "maxAPYé2" ∧
      constantIdent "maxAPYé2" ≠ constantIdent "maxAPyé2" := by
  have hname : IsCamelCase "maxAPYé2" := ⟨by decide, by decide⟩
  have hother : IsCamelCase "maxAPyé2" := ⟨by decide, by decide⟩
  have hconstant : constantIdent "maxAPYé2" = "MAX_A_P_Yé2" := by decide
  obtain ⟨hcapitals, hdecode, hne⟩ := constantIdent_decodes "maxAPYé2"
  exact ⟨hname, hother, hcapitals, hconstant, hconstant ▸ hdecode hname, hne _ hname hother (by decide)⟩

/-- With an underscore of its own, or a capital at its start, a parameter may share the constant of another. -/
example : constantIdent "lock_period" = constantIdent "lockPeriod" ∧ constantIdent "Strategy" = constantIdent "strategy" := by
  decide

end DefiComposer.Move
