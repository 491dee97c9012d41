import DefiComposer.Move.Module
import DefiComposer.Proofs.LetterCase
import DefiComposer.Proofs.Words
import Mathlib

/-!
# Module names: what the name of a composition becomes

The loop over a trimmed name puts one underscore for each run of blanks, so what it leaves are the words of the name, each
without the characters that no name holds and in small letters, with underscores between them (`nameChars_trim`). Everything
follows from that: the name of a module depends on the words of a text up to the case of their letters
(`moduleIdent_eq_of_words`), it is a proper name (`isModuleName_moduleIdent`), and a proper name is left as it is
(`moduleIdent_of_isModuleName`).
-/

namespace DefiComposer.Move

open Text (isBlank words trim)

/-! ## Characters of a name -/

/-- The characters of a module's name: small letters of ASCII, digits, and the underscore. -/
def isModuleChar (c : Char) : Bool := c.isLower || c.isDigit || c == '_'

/-- The characters of names are those of ASCII, some of them. -/
theorem toNat_lt_of_isNameChar {c : Char} (h : isNameChar c = true) : c.toNat < 128 := by
  have hcases : (((c.isUpper || c.isLower) || c.isDigit) || c == '_') = true := h
  simp only [Bool.or_eq_true, beq_iff_eq] at hcases
  rcases hcases with ((hupper | hlower) | hdigit) | rfl
  · have hlast : c.val ≤ 'Z'.val := (of_decide_eq_true hupper).2
    exact Nat.lt_of_le_of_lt hlast (by decide)
  · have hlast : c.val ≤ 'z'.val := of_decide_eq_true (Bool.and_eq_true_iff.mp hlower).2
    exact Nat.lt_of_le_of_lt hlast (by decide)
  · have hlast : c.val ≤ '9'.val := of_decide_eq_true (Bool.and_eq_true_iff.mp hdigit).2
    exact Nat.lt_of_le_of_lt hlast (by decide)
  · decide

/-- The characters that may stand in a name. -/
def nameAlphabet : List Char := ((List.range 128).map Char.ofNat).filter isNameChar

theorem mem_nameAlphabet {c : Char} (h : isNameChar c = true) : c ∈ nameAlphabet :=
  List.mem_filter.mpr
    ⟨List.mem_map.mpr ⟨c.toNat, List.mem_range.mpr (toNat_lt_of_isNameChar h), Char.ofNat_toNat c⟩, h⟩

/-- A fact about characters of names is checked for each of them. -/
theorem of_isNameChar {p : Char → Bool} (hall : nameAlphabet.all p = true) {c : Char} (h : isNameChar c = true) :
    p c = true :=
  List.all_eq_true.mp hall c (mem_nameAlphabet h)

/-- A character of a finished name may stand in a name. -/
theorem isNameChar_of_isModuleChar {c : Char} (h : isModuleChar c = true) : isNameChar c = true := by
  change (((c.isUpper || c.isLower) || c.isDigit) || c == '_') = true
  rw [Bool.or_assoc, Bool.or_assoc]
  exact Bool.or_eq_true_iff.mpr (Or.inr (by rwa [← Bool.or_assoc]))

/-- In small letters the characters of names are those of finished names. -/
theorem isModuleChar_toLower {c : Char} (h : isNameChar c = true) : isModuleChar c.toLower = true :=
  of_isNameChar (p := fun c => isModuleChar c.toLower) (by decide) h

theorem toLower_of_isModuleChar {c : Char} (h : isModuleChar c = true) : c.toLower = c := by
  have himp : (!isModuleChar c || c.toLower == c) = true :=
    of_isNameChar (p := fun c => !isModuleChar c || c.toLower == c) (by decide) (isNameChar_of_isModuleChar h)
  simpa [h] using himp

theorem isBlank_of_isNameChar {c : Char} (h : isNameChar c = true) : isBlank c = false := by
  have hnot : (!isBlank c) = true := of_isNameChar (p := fun c => !isBlank c) (by decide) h
  simpa using hnot

theorem isBlank_toLower (c : Char) : isBlank c.toLower = isBlank c := Text.apply_toLower (by decide) c

theorem isNameChar_toLower (c : Char) : isNameChar c.toLower = isNameChar c := Text.apply_toLower (by decide) c

/-! ## The words of a name -/

/-- What a word leaves in a name. -/
def nameWord (w : List Char) : List Char := (w.filter isNameChar).map Char.toLower

/-- What several words leave in a name, with an underscore between two of them. -/
def joinedWords (ws : List (List Char)) : List Char := List.intercalate ['_'] (ws.map nameWord)

/-- A word leaves what its first character leaves, and then what the others do. -/
theorem nameWord_cons (c : Char) (w : List Char) : nameWord (c :: w) = nameWord [c] ++ nameWord w := by
  rw [nameWord, nameWord, nameWord, ← List.map_append, ← List.filter_append, List.singleton_append]

/-- Before further words an underscore is put behind a word. -/
theorem joinedWords_cons (w : List Char) {ws : List (List Char)} (h : ws ≠ []) :
    joinedWords (w :: ws) = nameWord w ++ '_' :: joinedWords ws := by
  obtain ⟨v, ws, rfl⟩ := List.exists_cons_of_ne_nil h
  simp [joinedWords, List.intercalate_cons_cons]

/-- A character in front of the first word leaves its part at the start. -/
theorem joinedWords_modifyHead (c : Char) {ws : List (List Char)} (h : ws ≠ []) :
    joinedWords (ws.modifyHead (c :: ·)) = nameWord [c] ++ joinedWords ws := by
  obtain ⟨w, ws, rfl⟩ := List.exists_cons_of_ne_nil h
  rw [List.modifyHead_cons]
  by_cases hws : ws = []
  · subst hws
    simpa [joinedWords] using nameWord_cons c w
  · rw [joinedWords_cons _ hws, joinedWords_cons _ hws, nameWord_cons c w, List.append_assoc]

/-- A blank gives an underscore, unless it follows another blank. -/
theorem nameChars_blank {b : Char} (hb : isBlank b = true) (afterBlank : Bool) (s : List Char) :
    nameChars afterBlank (b :: s) = (if afterBlank then [] else ['_']) ++ nameChars true s := by
  rw [nameChars, if_pos hb]

/-- A character that is no blank gives what it leaves of a word, whatever stood before it. -/
theorem nameChars_cons {c : Char} (hc : isBlank c = false) (afterBlank : Bool) (s : List Char) :
    nameChars afterBlank (c :: s) = nameWord [c] ++ nameChars false s := by
  rw [nameChars, if_neg (by simp [hc])]
  cases hn : isNameChar c <;> simp [nameWord, hn]

/-- The loop over a text that does not end in a blank leaves its words. It is read behind a blank, where no underscore is
put for the blanks that the text starts with. -/
theorem nameChars_eq_joinedWords {s : List Char} (hlast : ∀ c ∈ s.getLast?, isBlank c = false) :
    nameChars true s = joinedWords (words s) := by
  induction s with
  | nil => rfl
  | cons c s ih =>
    have hlast' : ∀ d ∈ s.getLast?, isBlank d = false := by
      intro d hd
      refine hlast d ?_
      rw [Option.mem_def, List.getLast?_cons, Option.mem_def.mp hd]
      rfl
    cases hc : isBlank c with
    | true => rw [nameChars_blank hc, Text.words_cons_of_isBlank hc, ← ih hlast', if_pos rfl, List.nil_append]
    | false =>
      rw [nameChars_cons hc]
      cases s with
      | nil => simp [nameChars, joinedWords, Text.words_singleton hc]
      | cons d s =>
        cases hd : isBlank d with
        | true =>
          -- a word ends here, and another one follows since the text does not end in a blank
          have hne : words (d :: s) ≠ [] := by
            intro hnil
            have hall := List.all_eq_true.mp (Text.words_eq_nil_iff.mp hnil) _ (List.getLast_mem (List.cons_ne_nil d s))
            rw [hlast' _ (List.getLast?_eq_some_getLast _)] at hall
            cases hall
          rw [Text.words_cons_blank hc hd, joinedWords_cons _ hne, ← ih hlast', nameChars_blank hd, nameChars_blank hd]
          rfl
        | false =>
          rw [Text.words_cons_cons hc hd, joinedWords_modifyHead c (Text.words_ne_nil hd s), ← ih hlast',
            nameChars_cons hd, nameChars_cons hd]

/-- A trimmed text leaves its words. -/
theorem nameChars_trim (s : List Char) : nameChars false (trim s) = joinedWords (words s) := by
  rw [← Text.words_trim, ← nameChars_eq_joinedWords (Text.isBlank_getLast_trim s)]
  have hhead := Text.isBlank_head_trim s
  cases htrim : trim s with
  | nil => rfl
  | cons c rest =>
    have hc : isBlank c = false := hhead c (by rw [htrim]; rfl)
    rw [nameChars_cons hc, nameChars_cons hc]

/-! ## The name of a module -/

/-- The name of a module depends on the words of a text, and on those only up to what they leave in a name. -/
theorem moduleIdent_congr {a b : String} (h : (words a.toList).map nameWord = (words b.toList).map nameWord) :
    moduleIdent a = moduleIdent b := by
  have hchars : nameChars false (trim a.toList) = nameChars false (trim b.toList) := by
    rw [nameChars_trim, nameChars_trim, joinedWords, joinedWords, h]
  rw [moduleIdent, moduleIdent, hchars]

/-- Texts with the same words name the same module. -/
theorem moduleIdent_eq_of_words {a b : String} (h : words a.toList = words b.toList) : moduleIdent a = moduleIdent b :=
  moduleIdent_congr (congrArg _ h)

/-- What a word leaves does not see the case of its letters. -/
theorem nameWord_map_toLower (w : List Char) : nameWord (w.map Char.toLower) = nameWord w := by
  have hfilter : (isNameChar ∘ Char.toLower) = isNameChar := funext isNameChar_toLower
  have hlower : (Char.toLower ∘ Char.toLower) = Char.toLower := funext Char.toLower_toLower_eq_toLower
  rw [nameWord, nameWord, List.filter_map, List.map_map, hfilter, hlower]

/-- Texts that differ in the case of their letters only name the same module. -/
theorem moduleIdent_eq_of_sameIgnoringCase {a b : String} (h : Text.sameIgnoringCase a b = true) :
    moduleIdent a = moduleIdent b := by
  have hwords : ∀ s : String, (words (s.toList.map Char.toLower)).map nameWord = (words s.toList).map nameWord := by
    intro s
    rw [Text.words_map isBlank_toLower, List.map_map]
    exact List.map_congr_left fun w _ => nameWord_map_toLower w
  refine moduleIdent_congr ?_
  rw [← hwords a, ← hwords b, beq_iff_eq.mp h]

/-! ## Proper names -/

/-- A proper name of a module: there is something to it, its characters are those of such names, and it does not start with
a digit. -/
structure IsModuleName (name : String) : Prop where
  nonempty : name ≠ ""
  chars : ∀ c ∈ name.toList, isModuleChar c = true
  start : ∀ c ∈ name.toList.head?, c.isDigit = false

/-- The loop leaves characters of finished names only. -/
theorem isModuleChar_of_mem_nameChars {afterBlank : Bool} {s : List Char} {c : Char} (h : c ∈ nameChars afterBlank s) :
    isModuleChar c = true := by
  induction s generalizing afterBlank with
  | nil => cases h
  | cons d s ih =>
    unfold nameChars at h
    split at h
    · rcases List.mem_append.mp h with h | h
      · cases afterBlank with
        | true => cases h
        | false =>
          obtain rfl := List.mem_singleton.mp h
          decide
      · exact ih h
    · rcases List.mem_append.mp h with h | h
      · split at h
        · rename_i hd
          obtain rfl := List.mem_singleton.mp h
          exact isModuleChar_toLower hd
        · cases h
      · exact ih h

/-- A text is a proper name if its characters are those of names and the first is no digit. -/
theorem isModuleName_ofList {c : Char} {rest : List Char} (hc : c.isDigit = false)
    (hchars : ∀ d ∈ c :: rest, isModuleChar d = true) : IsModuleName (String.ofList (c :: rest)) where
  nonempty := by simp [← String.toList_inj]
  chars := by rwa [String.toList_ofList]
  start := by
    rw [String.toList_ofList]
    intro d hd
    obtain rfl : c = d := Option.some.inj hd
    exact hc

/-- What a text becomes is a proper name. -/
theorem isModuleName_moduleIdent (name : String) : IsModuleName (moduleIdent name) := by
  have hchars : ∀ c ∈ nameChars false (trim name.toList), isModuleChar c = true := fun _ => isModuleChar_of_mem_nameChars
  have hc : 'c'.isDigit = false := by decide
  unfold moduleIdent
  split
  · have hword : ∀ c ∈ "composition".toList, isModuleChar c = true := List.all_eq_true.mp (by decide)
    exact isModuleName_ofList hc hword
  · rename_i c rest heq
    rw [heq] at hchars
    split
    · have hword : ∀ c ∈ "composition_".toList, isModuleChar c = true := List.all_eq_true.mp (by decide)
      exact isModuleName_ofList hc (List.forall_mem_append.mpr ⟨hword, hchars⟩)
    · rename_i hdigit
      exact isModuleName_ofList (by simpa using hdigit) hchars

/-- A proper name is left as it is. -/
theorem moduleIdent_of_isModuleName {name : String} (h : IsModuleName name) : moduleIdent name = name := by
  have hne : name.toList ≠ [] := fun hnil => h.nonempty (String.toList_eq_nil_iff.mp hnil)
  have hname : ∀ c ∈ name.toList, isNameChar c = true := fun c hc => isNameChar_of_isModuleChar (h.chars c hc)
  have hwords : words name.toList = [name.toList] :=
    Text.words_of_not_isBlank hne fun c hc => isBlank_of_isNameChar (hname c hc)
  have hword : nameWord name.toList = name.toList := by
    rw [nameWord, List.filter_eq_self.mpr hname]
    exact (List.map_congr_left fun c hc => toLower_of_isModuleChar (h.chars c hc)).trans (List.map_id _)
  have hchars : nameChars false (trim name.toList) = name.toList := by
    rw [nameChars_trim, hwords, joinedWords, List.map_singleton, List.intercalate_singleton, hword]
  unfold moduleIdent
  rw [hchars]
  have hstart := h.start
  split
  · rename_i hnil
    exact absurd hnil hne
  · rename_i c rest heq
    rw [heq] at hstart
    rw [if_neg (by simp [hstart c rfl]), ← heq, String.ofList_toList]

/-- The names of modules have one form. For every text: what it becomes is a proper name; that name becomes itself; a text
that differs in the case of ASCII letters only becomes the same name; so does the text between blanks; and so does the text
with other blanks, one or more, in the place of one or more blanks. -/
theorem moduleIdent_canonical (name : String) :
    IsModuleName (moduleIdent name) ∧ moduleIdent (moduleIdent name) = moduleIdent name ∧
      (∀ other, Text.sameIgnoringCase name other = true → moduleIdent other = moduleIdent name) ∧
      (∀ before after, Text.allBlank before = true → Text.allBlank after = true →
        moduleIdent (before ++ name ++ after) = moduleIdent name) ∧
      ∀ head gap gap' tail, name = head ++ gap ++ tail → gap ≠ "" → gap' ≠ "" → Text.allBlank gap = true →
        Text.allBlank gap' = true → moduleIdent (head ++ gap' ++ tail) = moduleIdent name := by
  refine ⟨isModuleName_moduleIdent name, moduleIdent_of_isModuleName (isModuleName_moduleIdent name), ?_, ?_, ?_⟩
  · intro other h
    exact (moduleIdent_eq_of_sameIgnoringCase h).symm
  · intro before after hbefore hafter
    refine moduleIdent_eq_of_words ?_
    rw [String.toList_append, String.toList_append, Text.words_append_blanks hafter, Text.words_blanks_append hbefore]
  · rintro head gap gap' tail rfl hne hne' hgap hgap'
    refine moduleIdent_eq_of_words ?_
    have hparts : ∀ g : String, g ≠ "" → Text.allBlank g = true →
        words (head ++ g ++ tail).toList = words head.toList ++ words tail.toList := by
      intro g hg hblank
      rw [String.toList_append, String.toList_append]
      exact Text.words_gap (fun hnil => hg (String.toList_eq_nil_iff.mp hnil)) hblank _ _
    rw [hparts gap' hne' hgap', hparts gap hne hgap]

/-- A name that begins with a digit, has blanks of several kinds in it, and has a letter beyond ASCII and a dash that are
dropped: at its ends, between its words and in the case of its letters it may change. -/
theorem secondVault_canonical :
    moduleIdent "2nd\u00a0\t Vault — Zürich" = "composition_2nd_vault__zrich" ∧
      moduleIdent "composition_2nd_vault__zrich" = "composition_2nd_vault__zrich" ∧
      (Text.sameIgnoringCase "2nd\u00a0\t Vault — Zürich" "2ND\u00a0\t vAULT — züRICH" = true ∧
        moduleIdent "2ND\u00a0\t vAULT — züRICH" = "composition_2nd_vault__zrich") ∧
      (Text.allBlank "\u2003" = true ∧ Text.allBlank "\r\n" = true ∧
        moduleIdent ("\u2003" ++ "2nd\u00a0\t Vault — Zürich" ++ "\r\n") = "composition_2nd_vault__zrich") ∧
      Text.allBlank "\u00a0\t " = true ∧ Text.allBlank "\u3000" = true ∧
        moduleIdent ("2nd" ++ "\u3000" ++ "Vault — Zürich") = "composition_2nd_vault__zrich" := by
  have hname : moduleIdent "2nd\u00a0\t Vault — Zürich" = "composition_2nd_vault__zrich" := by decide
  obtain ⟨-, hself, hcase, hends, hgaps⟩ := moduleIdent_canonical "2nd\u00a0\t Vault — Zürich"
  rw [hname] at hself hcase hends hgaps
  have hother : Text.sameIgnoringCase "2nd\u00a0\t Vault — Zürich" "2ND\u00a0\t vAULT — züRICH" = true := by decide
  have hbefore : Text.allBlank "\u2003" = true := by decide
  have hafter : Text.allBlank "\r\n" = true := by decide
  have hgap : Text.allBlank "\u00a0\t " = true := by decide
  have hgap' : Text.allBlank "\u3000" = true := by decide
  exact ⟨hname, hself, ⟨hother, hcase _ hother⟩, ⟨hbefore, hafter, hends _ _ hbefore hafter⟩, hgap, hgap',
    hgaps "2nd" "\u00a0\t " "\u3000" "Vault — Zürich" (by decide) (by decide) (by decide) hgap hgap'⟩

end DefiComposer.Move
