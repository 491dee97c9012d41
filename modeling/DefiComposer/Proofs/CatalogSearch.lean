import DefiComposer.Catalog
import DefiComposer.Proofs.LetterCase

/-!
# Catalog search: a longer term finds no more

The lowercase form of a character depends on its place for the capital sigma only, and that one always becomes a small sigma.
So a term whose lowercase form occurs in a text without a small sigma has no capital sigma in it, and is put in small letters
character by character (`Text.lower_of_no_sigma`): a part of the term has a part of its lowercase form. The texts of the
catalog are such texts (`Catalog.isSigmaFree_of_mem_templates`), hence a template that matches a term matches every part of it
(`Catalog.isMatch_of_isInfix`). The main statement is `Catalog.search_narrows`.
-/

namespace DefiComposer

/-! ## Lowercase forms without a sigma -/

namespace Text

/-- Whether no character is a small sigma, be it the usual one or the final one. -/
def isSigmaFree (s : List Char) : Bool := s.all fun c => c != 'σ' && c != 'ς'

/-- A part of a text without a small sigma has none. -/
theorem isSigmaFree_of_isInfix {s t : List Char} (hst : s <:+: t) (h : isSigmaFree t = true) : isSigmaFree s = true :=
  List.all_eq_true.mpr fun c hc => List.all_eq_true.mp h c (hst.subset hc)

/-- Wherever a capital sigma stands, a small one comes of it. -/
theorem isSigmaFree_lowerAt (before after : List Char) : isSigmaFree (lowerAt before 'Σ' after) = false := by
  unfold lowerAt
  rw [if_pos (by decide)]
  split <;> decide

/-- A text whose lowercase form has no small sigma has no capital one. -/
theorem sigma_not_mem_of_lowerFrom {before s : List Char} (h : isSigmaFree (lowerFrom before s) = true) : 'Σ' ∉ s := by
  induction s generalizing before with
  | nil => exact List.not_mem_nil
  | cons c rest ih =>
    rw [lowerFrom] at h
    rw [List.mem_cons, not_or]
    refine ⟨?_, ih (isSigmaFree_of_isInfix (List.suffix_append _ _).isInfix h)⟩
    rintro rfl
    have hc := isSigmaFree_of_isInfix (List.prefix_append _ _).isInfix h
    rw [isSigmaFree_lowerAt] at hc
    cases hc

/-- Without a capital sigma the lowercase form is made character by character. -/
theorem lowerFrom_of_no_sigma {before s : List Char} (h : 'Σ' ∉ s) : lowerFrom before s = s.flatMap lowerChar := by
  induction s generalizing before with
  | nil => rfl
  | cons c rest ih =>
    rw [List.mem_cons, not_or] at h
    have hc : lowerAt before c rest = lowerChar c := if_neg (by simpa using Ne.symm h.1)
    rw [lowerFrom, hc, ih h.2, List.flatMap_cons]

/-- A text without a capital sigma is put in small letters character by character. -/
theorem lower_of_no_sigma {s : List Char} (h : 'Σ' ∉ s) : lower s = s.flatMap lowerChar := lowerFrom_of_no_sigma h

/-- The lowercase form of a part is a part of the lowercase form, if that has no small sigma. -/
theorem lower_isInfix {s t : List Char} (hst : s <:+: t) (h : isSigmaFree (lower t) = true) : lower s <:+: lower t := by
  have ht : 'Σ' ∉ t := sigma_not_mem_of_lowerFrom h
  have hs : 'Σ' ∉ s := fun hmem => ht (hst.subset hmem)
  rw [lower_of_no_sigma hs, lower_of_no_sigma ht]
  obtain ⟨before, after, rfl⟩ := hst
  rw [List.flatMap_append, List.flatMap_append]
  exact List.infix_append _ _ _

/-- With a sigma it need not be: at the end of a word that letter has a form of its own. -/
example : ['Α', 'Σ'] <:+: ['Α', 'Σ', 'Α'] ∧ ¬ lower ['Α', 'Σ'] <:+: lower ['Α', 'Σ', 'Α'] := by decide +kernel

end Text

/-! ## Templates that match a term -/

namespace Template

/-- The texts that a search looks at. -/
def searchedTexts (t : Template) : List String := t.name :: t.description :: t.tags

/-- A template matches a term exactly when the lowercase form of the term is a part of that of a searched text. -/
theorem isMatch_iff {t : Template} {term : String} :
    t.isMatch term = true ↔ ∃ text ∈ t.searchedTexts, Text.lower term.toList <:+: Text.lower text.toList := by
  simp only [isMatch, searchedTexts, List.any_eq_true, Text.occursIn_iff]

end Template

/-! ## Searches -/

namespace Catalog

/-- No text of the catalog has a sigma in it. -/
theorem isSigmaFree_of_mem_templates {t : Template} (ht : t ∈ templates) {text : String} (htext : text ∈ t.searchedTexts) :
    Text.isSigmaFree (Text.lower text.toList) = true := by
  have hall : (templates.all fun t => t.searchedTexts.all fun text => Text.isSigmaFree (Text.lower text.toList)) = true := by
    decide +kernel
  exact List.all_eq_true.mp (List.all_eq_true.mp hall t ht) text htext

/-- No template is in the catalog twice: their kinds differ. -/
theorem templates_nodup : templates.Nodup := by
  have hkinds : (templates.map (·.kind)).Nodup := by decide
  exact List.Pairwise.of_map (·.kind) (fun _ _ hne heq => hne (congrArg _ heq)) hkinds

/-- A template that matches a term matches each of its parts. -/
theorem isMatch_of_isInfix {t : Template} (ht : t ∈ templates) {term longer : String}
    (h : term.toList <:+: longer.toList) (hmatch : t.isMatch longer = true) : t.isMatch term = true := by
  obtain ⟨text, htext, hoccurs⟩ := Template.isMatch_iff.mp hmatch
  have hfree := Text.isSigmaFree_of_isInfix hoccurs (isSigmaFree_of_mem_templates ht htext)
  exact Template.isMatch_iff.mpr ⟨text, htext, (Text.lower_isInfix h hfree).trans hoccurs⟩

/-- A term that has another as a part finds no more than that one. -/
theorem search_sublist {term longer : String} (h : term.toList <:+: longer.toList) (category : Option String) :
    (search longer category).Sublist (search term category) := by
  have hkept : ∀ t ∈ templates, (longer.isEmpty || t.isMatch longer) = true → (term.isEmpty || t.isMatch term) = true := by
    intro t ht hlonger
    rw [Bool.or_eq_true] at hlonger ⊢
    rcases hlonger with hempty | hmatch
    · -- the empty term has no other part than itself
      left
      rw [String.isEmpty_iff] at hempty ⊢
      rw [hempty] at h
      exact String.toList_eq_nil_iff.mp (List.infix_nil.mp h)
    · exact Or.inr (isMatch_of_isInfix ht h hmatch)
  have hfilter : search longer category = (search term category).filter fun t => longer.isEmpty || t.isMatch longer := by
    rw [search, search, List.filter_filter]
    refine List.filter_congr fun t ht => ?_
    cases hlonger : longer.isEmpty || t.isMatch longer with
    | false => simp
    | true => simp [hkept t ht hlonger]
  rw [hfilter]
  exact List.filter_sublist

/-- A category leaves out the templates of the others. -/
theorem search_some (term category : String) :
    search term (some category) = (search term none).filter (·.category == category) := by
  rw [search, search, List.filter_filter]
  refine List.filter_congr fun t _ => ?_
  simp [Bool.and_comm]

/-- Terms that differ in the case of ASCII letters only find the same. -/
theorem search_of_sameIgnoringCase {term other : String} (h : Text.sameIgnoringCase term other = true)
    (category : Option String) : search other category = search term category := by
  have hlower : Text.lower other.toList = Text.lower term.toList := (Text.lower_eq_of_sameIgnoringCase h).symm
  have hempty : other.isEmpty = term.isEmpty := by
    rw [Text.sameIgnoringCase, beq_iff_eq] at h
    rw [Bool.eq_iff_iff, String.isEmpty_iff, String.isEmpty_iff, ← String.toList_eq_nil_iff, ← String.toList_eq_nil_iff,
      ← List.map_eq_nil_iff (f := Char.toLower), ← h, List.map_eq_nil_iff]
  simp only [search, Template.isMatch, hlower, hempty]

/-- A search for a longer term finds a part of what its parts find, in order. A category leaves out the templates of the
others; the case of ASCII letters does not count; and what is found stands in the order of the catalog, each template once.
-/
theorem search_narrows (term : String) (category : Option String) :
    (∀ before after, (search (before ++ term ++ after) category).Sublist (search term category)) ∧
      (∀ c, search term (some c) = (search term none).filter (·.category == c)) ∧
      (∀ other, Text.sameIgnoringCase term other = true → search other category = search term category) ∧
      (search term category).Sublist templates ∧ (search term category).Nodup := by
  have hsublist : (search term category).Sublist templates := List.filter_sublist
  refine ⟨fun before after => search_sublist ?_ category, search_some term, ?_, hsublist, hsublist.nodup templates_nodup⟩
  · rw [String.toList_append, String.toList_append]
    exact List.infix_append _ _ _
  · exact fun other h => search_of_sameIgnoringCase h category

/-- Two templates have the word, one of them before a hyphen, and its letters may be in any case. -/
theorem yield_narrows :
    (search "yield" none).map (·.kind) = [.staking, .vault] ∧
      (search ("" ++ "yield" ++ "-generating") none).Sublist (search "yield" none) ∧
      search "yield" (some "Yield") = (search "yield" none).filter (·.category == "Yield") ∧
      (Text.sameIgnoringCase "yield" "YiELD" = true ∧ search "YiELD" none = search "yield" none) ∧
      (search "yield" none).Sublist templates ∧ (search "yield" none).Nodup := by
  have hcase : Text.sameIgnoringCase "yield" "YiELD" = true := by decide
  obtain ⟨hlonger, hcategory, hother, hsublist, hnodup⟩ := search_narrows "yield" none
  exact ⟨by decide +kernel, hlonger "" "-generating", hcategory "Yield", ⟨hcase, hother _ hcase⟩, hsublist, hnodup⟩

end Catalog

end DefiComposer
