import DefiComposer.Text.Lowercase
import DefiComposer.Text.Basic

/-!
# Letter case: lowercase forms do not see the case of ASCII letters

A capital of ASCII and its small letter have one lowercase form. They have one effect on what stands around them, too: both
have case and neither is left out when a final sigma is decided. So a text may be put in small letters of ASCII first
(`Text.lower_map_toLower`), and texts that differ in the case of such letters only have one lowercase form.
-/

namespace DefiComposer.Text

/-- The capital letters of ASCII. -/
def capitals : List Char := (List.range' 65 26).map Char.ofNat

theorem mem_capitals {c : Char} (hfirst : 65 ≤ c.toNat) (hlast : c.toNat ≤ 90) : c ∈ capitals :=
  List.mem_map.mpr ⟨c.toNat, List.mem_range'_1.mpr ⟨hfirst, Nat.lt_succ_of_le hlast⟩, c.ofNat_toNat⟩

/-- What does not tell the capitals from their small letters does not see the case of ASCII letters. -/
theorem apply_toLower {β : Type} [DecidableEq β] {f : Char → β}
    (h : capitals.all (fun c => f c.toLower = f c) = true) (c : Char) : f c.toLower = f c := by
  by_cases hc : c.val ≥ 'A'.val ∧ c.val ≤ 'Z'.val
  · exact of_decide_eq_true (List.all_eq_true.mp h c (mem_capitals hc.1 hc.2))
  · have hself : c.toLower = c := dif_neg hc
    rw [hself]

/-- A capital and its small letter have one lowercase form. -/
theorem lowerChar_toLower (c : Char) : lowerChar c.toLower = lowerChar c := apply_toLower (by decide) c

/-- A capital and its small letter are left out alike when a final sigma is decided. -/
theorem caseIgnorable_toLower (c : Char) : inRanges caseIgnorable c.toLower = inRanges caseIgnorable c :=
  apply_toLower (by decide +kernel) c

theorem cased_toLower (c : Char) : inRanges cased c.toLower = inRanges cased c := apply_toLower (by decide +kernel) c

theorem isSigma_toLower (c : Char) : (c.toLower == 'Σ') = (c == 'Σ') := apply_toLower (f := (· == 'Σ')) (by decide) c

/-- What comes first with case is not changed by small letters. -/
theorem startsCased_map_toLower (s : List Char) : startsCased (s.map Char.toLower) = startsCased s := by
  induction s with
  | nil => rfl
  | cons c rest ih =>
    unfold startsCased at ih ⊢
    rw [List.map_cons, List.dropWhile_cons, List.dropWhile_cons, caseIgnorable_toLower]
    cases inRanges caseIgnorable c with
    | true => exact ih
    | false => exact cased_toLower c

/-- The form of a character in its place is not changed by small letters there or around it. -/
theorem lowerAt_map_toLower (before : List Char) (c : Char) (after : List Char) :
    lowerAt (before.map Char.toLower) c.toLower (after.map Char.toLower) = lowerAt before c after := by
  simp only [lowerAt, isSigma_toLower, startsCased_map_toLower, lowerChar_toLower]

/-- The forms of all characters of a text are not changed by small letters. -/
theorem lowerFrom_map_toLower (before s : List Char) :
    lowerFrom (before.map Char.toLower) (s.map Char.toLower) = lowerFrom before s := by
  induction s generalizing before with
  | nil => rfl
  | cons c rest ih => rw [List.map_cons, lowerFrom, lowerFrom, lowerAt_map_toLower, ← List.map_cons, ih]

/-- Putting the ASCII letters of a text in small letters first does not change its lowercase form. -/
theorem lower_map_toLower (s : List Char) : lower (s.map Char.toLower) = lower s := lowerFrom_map_toLower [] s

/-- Texts that differ in the case of ASCII letters only have one lowercase form. -/
theorem lower_eq_of_sameIgnoringCase {a b : String} (h : sameIgnoringCase a b = true) : lower a.toList = lower b.toList := by
  rw [sameIgnoringCase, beq_iff_eq] at h
  rw [← lower_map_toLower, h, lower_map_toLower]

end DefiComposer.Text
