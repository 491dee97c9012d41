import DefiComposer.Compatibility
import DefiComposer.Proofs.LetterCase
import DefiComposer.Proofs.Maps

/-!
# Tiers: which pairs of tags each tier accepts

The verdict on two tags depends on their folded forms only. The keys of the table of synonyms fold to different forms
(`Compatibility.keys_nodup`), so the first entry that is found for a tag is the only one, and the table can be read as a
relation: two forms are synonyms when some entry has the one for its key and lists the other (`Compatibility.lists_iff`).
`Compatibility.Accepts` says what each tier accepts, whatever is tried before it, and treats both tags alike. From it come
the laws of the verdict (`compatibility_laws`).
-/

namespace DefiComposer

namespace Compatibility

/-! ## Synonyms and roots as relations -/

/-- Some entry of the table has one folded tag for its key and lists the other. -/
def Names (tag other : List Char) : Prop :=
  ∃ entry ∈ synonyms, fold entry.1 = tag ∧ ∃ word ∈ entry.2, fold word = other

/-- The table names one of two folded tags under the other, whichever of them is the key. -/
def AreSynonyms (a b : List Char) : Prop := Names a b ∨ Names b a

/-- Some root occurs in both folded tags. -/
def ShareRoot (a b : List Char) : Prop := ∃ root ∈ roots, root.toList <:+: a ∧ root.toList <:+: b

variable {a b : List Char}

/-- The keys of the table fold to different forms: no entry hides another. -/
theorem keys_nodup : (synonyms.map fun entry => fold entry.1).Nodup := by decide

/-- The table finds for a tag exactly the entry that has it for its key. -/
theorem find?_synonyms_eq_some_iff {tag : List Char} {entry : String × List String} :
    synonyms.find? (fold ·.1 = tag) = some entry ↔ entry ∈ synonyms ∧ fold entry.1 = tag :=
  find?_eq_some_iff_of_nodup keys_nodup

/-- The synonyms of a tag are the words of the entries that have it for their key. -/
theorem mem_synonymsOf_iff {tag : List Char} {word : String} :
    word ∈ synonymsOf tag ↔ ∃ entry ∈ synonyms, fold entry.1 = tag ∧ word ∈ entry.2 := by
  unfold synonymsOf
  constructor
  · intro h
    split at h
    · rename_i entry hentry
      obtain ⟨hmem, hkey⟩ := find?_synonyms_eq_some_iff.mp hentry
      exact ⟨entry, hmem, hkey, h⟩
    · cases h
  · rintro ⟨entry, hmem, hkey, h⟩
    rw [find?_synonyms_eq_some_iff.mpr ⟨hmem, hkey⟩]
    exact h

/-- The look-up in the table says what the table says. -/
theorem lists_iff : lists a b = true ↔ Names a b := by
  simp only [lists, List.any_eq_true, decide_eq_true_eq, mem_synonymsOf_iff, Names]
  constructor
  · rintro ⟨word, ⟨entry, hentry, hkey, hword⟩, hb⟩
    exact ⟨entry, hentry, hkey, word, hword, hb⟩
  · rintro ⟨entry, hentry, hkey, word, hword, hb⟩
    exact ⟨word, ⟨entry, hentry, hkey, hword⟩, hb⟩

/-- Looking up both ways finds synonyms. -/
theorem lists_or_iff : (lists a b || lists b a) = true ↔ AreSynonyms a b := by
  rw [Bool.or_eq_true, lists_iff, lists_iff, AreSynonyms]

/-- The test goes through the roots. -/
theorem shareRoot_iff : shareRoot a b = true ↔ ShareRoot a b := by
  simp only [shareRoot, List.any_eq_true, Bool.and_eq_true, Text.occursIn_iff, ShareRoot]

instance : Decidable (AreSynonyms a b) := decidable_of_iff _ lists_or_iff

instance : Decidable (ShareRoot a b) := decidable_of_iff _ shareRoot_iff

theorem AreSynonyms.symm (h : AreSynonyms a b) : AreSynonyms b a := Or.symm h

theorem ShareRoot.symm (h : ShareRoot a b) : ShareRoot b a := by
  obtain ⟨root, hroot, ha, hb⟩ := h
  exact ⟨root, hroot, hb, ha⟩

/-! ## What a tier accepts -/

/-- The pairs of folded tags that a tier accepts. Each tier leaves to the earlier ones what they accept. -/
def Accepts : Tier → List Char → List Char → Prop
  | .exact, a, b => a = b
  | .synonym, a, b => a ≠ b ∧ AreSynonyms a b
  | .commonRoot, a, b => a ≠ b ∧ ¬ AreSynonyms a b ∧ ShareRoot a b

/-- Each tier accepts two tags in either order. -/
theorem Accepts.symm {tier : Tier} (h : Accepts tier a b) : Accepts tier b a := by
  cases tier with
  | exact => exact Eq.symm h
  | synonym => exact ⟨h.1.symm, h.2.symm⟩
  | commonRoot => exact ⟨h.1.symm, fun hs => h.2.1 hs.symm, h.2.2.symm⟩

end Compatibility

open Compatibility

variable {source target : String}

/-! ## The verdict -/

/-- The verdict is the tier that accepts the folded tags. -/
theorem compatibility_eq_some_iff {tier : Tier} :
    compatibility source target = some tier ↔ Accepts tier (fold source) (fold target) := by
  simp only [compatibility, lists_or_iff, shareRoot_iff]
  by_cases hequal : fold source = fold target
  · cases tier <;> simp [Accepts, hequal]
  · by_cases hsynonyms : AreSynonyms (fold source) (fold target)
    · cases tier <;> simp [Accepts, hequal, hsynonyms]
    · by_cases hroot : ShareRoot (fold source) (fold target) <;> cases tier <;> simp [Accepts, hequal, hsynonyms, hroot]

/-- The exact tier is that of tags with one folded form. -/
theorem compatibility_eq_exact_iff : compatibility source target = some .exact ↔ fold source = fold target :=
  compatibility_eq_some_iff

/-- The verdict does not depend on which tag is the source. -/
theorem compatibility_comm (source target : String) : compatibility source target = compatibility target source := by
  ext tier
  rw [compatibility_eq_some_iff, compatibility_eq_some_iff]
  exact ⟨Accepts.symm, Accepts.symm⟩

/-- The verdict does not depend on the case of ASCII letters. -/
theorem compatibility_of_sameIgnoringCase {source' target' : String} (hs : Text.sameIgnoringCase source source' = true)
    (ht : Text.sameIgnoringCase target target' = true) : compatibility source' target' = compatibility source target := by
  have hsource : fold source = fold source' := Text.lower_eq_of_sameIgnoringCase hs
  have htarget : fold target = fold target' := Text.lower_eq_of_sameIgnoringCase ht
  rw [compatibility, compatibility, hsource, htarget]

/-- The verdict on two tags, whatever characters they are made of, is the same in either order and whatever the case of their
ASCII letters. It is exact where their lowercase forms are equal, and so for any tag and itself. Where the forms differ, they
are found synonyms exactly if some entry of the table has the one for its key and lists the other; and a common root is found
exactly if no entry does so and one of the roots occurs in both forms. -/
theorem compatibility_laws (a b : String) :
    compatibility a b = compatibility b a ∧
      (compatibility a b = some .exact ↔ Text.lower a.toList = Text.lower b.toList) ∧
      compatibility a a = some .exact ∧
      (∀ a' b', Text.sameIgnoringCase a a' = true → Text.sameIgnoringCase b b' = true →
        compatibility a' b' = compatibility a b) ∧
      (compatibility a b = some .synonym ↔ fold a ≠ fold b ∧ AreSynonyms (fold a) (fold b)) ∧
      (compatibility a b = some .commonRoot ↔ fold a ≠ fold b ∧ ¬ AreSynonyms (fold a) (fold b) ∧
        ∃ root ∈ roots, root.toList <:+: fold a ∧ root.toList <:+: fold b) := by
  refine ⟨compatibility_comm a b, compatibility_eq_some_iff, ?_, ?_, compatibility_eq_some_iff, compatibility_eq_some_iff⟩
  · exact compatibility_eq_exact_iff.mpr rfl
  · exact fun a' b' => compatibility_of_sameIgnoringCase

/-- Debts do not list receipts of loans, but these list debts; so the two are synonyms in either order, whatever their case. -/
theorem debt_loanReceipt_synonyms :
    Text.sameIgnoringCase "debt" "DEBT" = true ∧ Text.sameIgnoringCase "loanReceipt" "LoanRECEIPT" = true ∧
      ¬ Names (fold "debt") (fold "loanReceipt") ∧
      compatibility "DEBT" "LoanRECEIPT" = some .synonym ∧ compatibility "loanReceipt" "debt" = some .synonym := by
  obtain ⟨hcomm, -, -, hcase, hsynonym, -⟩ := compatibility_laws "debt" "loanReceipt"
  have hdebt : Text.sameIgnoringCase "debt" "DEBT" = true := by decide
  have hreceipt : Text.sameIgnoringCase "loanReceipt" "LoanRECEIPT" = true := by decide
  have hnames : ¬ Names (fold "debt") (fold "loanReceipt") := by
    rw [← lists_iff]
    decide
  have htier : compatibility "debt" "loanReceipt" = some .synonym := hsynonym.mpr ⟨by decide, by decide⟩
  exact ⟨hdebt, hreceipt, hnames, (hcase _ _ hdebt hreceipt).trans htier, hcomm.symm.trans htier⟩

/-- A capital sigma at the end of a tag has its final form, and the root before it is found. -/
example : compatibility "TOKENΣ" "lpToken" = some .commonRoot := by decide +kernel

end DefiComposer
