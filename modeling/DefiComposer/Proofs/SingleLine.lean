import DefiComposer.Proofs.Words
import Mathlib.Data.List.Chain

/-!
# Single lines: the form of free text in a comment

A word is a run of characters without a blank, and a text splits into words that stand between blanks (`Text.SplitsInto`), in
one way and always (`Text.splitsInto_iff`). Words that are joined with single spaces are the words of the text they make
(`Text.words_join`), so a text and its single line have the same words (`Text.words_singleLine`). That is why the single line
is a normal form (`Text.singleLine_normalForm`): no text is changed twice, and two texts have one single line exactly when
they split into the same words.
-/

namespace DefiComposer.Text

/-! ## How a text splits into words -/

/-- A run of characters without a blank. -/
structure IsWord (w : List Char) : Prop where
  nonempty : w ≠ []
  solid : ∀ c ∈ w, isBlank c = false

/-- A text splits into words: what stands before, between and behind them are blanks, and between two words is at least one.
-/
inductive SplitsInto : List Char → List (List Char) → Prop where
  | blanks {gap : List Char} : gap.all isBlank = true → SplitsInto gap []
  | word {gap w rest : List Char} {ws : List (List Char)} :
    gap.all isBlank = true → IsWord w → (∀ c ∈ rest.head?, isBlank c = true) → SplitsInto rest ws →
      SplitsInto (gap ++ w ++ rest) (w :: ws)

/-- Words do not run over into what starts with a blank. -/
theorem words_append_of_head {s rest : List Char} (h : ∀ c ∈ rest.head?, isBlank c = true) :
    words (s ++ rest) = words s ++ words rest := by
  cases rest with
  | nil => simp [words]
  | cons b rest =>
    have hb : isBlank b = true := h b rfl
    rw [words_append_cons hb, words_cons_of_isBlank hb]

/-- The words that a text splits into are its words. -/
theorem SplitsInto.words_eq {s : List Char} {ws : List (List Char)} (h : SplitsInto s ws) : words s = ws := by
  induction h with
  | blanks hgap => exact words_eq_nil_iff.mpr hgap
  | word hgap hw hrest _ ih =>
    rw [words_append_of_head hrest, words_blanks_append hgap, words_of_not_isBlank hw.nonempty hw.solid, ih,
      List.singleton_append]

/-- A text that does not start with a blank starts with a word, behind which it ends or has a blank. -/
theorem exists_first_word {c : Char} (hc : isBlank c = false) (s : List Char) :
    ∃ w rest, c :: s = w ++ rest ∧ IsWord w ∧ ∀ d ∈ rest.head?, isBlank d = true := by
  refine ⟨c :: s.takeWhile (!isBlank ·), s.dropWhile (!isBlank ·), ?_, ⟨List.cons_ne_nil _ _, ?_⟩, fun d hd => ?_⟩
  · rw [List.cons_append, List.takeWhile_append_dropWhile]
  · refine List.forall_mem_cons.mpr ⟨hc, fun d hd => ?_⟩
    simpa using List.all_eq_true.mp List.all_takeWhile d hd
  · have hhead := List.head?_dropWhile_not (!isBlank ·) s
    rw [Option.mem_def.mp hd] at hhead
    simpa using hhead

/-- Every text splits. -/
theorem exists_splitsInto (s : List Char) : ∃ ws, SplitsInto s ws := by
  induction hn : s.length using Nat.strongRecOn generalizing s with
  | ind n ih =>
    have hgap : (s.takeWhile isBlank).all isBlank = true := List.all_takeWhile
    have hs : s.takeWhile isBlank ++ s.dropWhile isBlank = s := List.takeWhile_append_dropWhile
    cases ht : s.dropWhile isBlank with
    | nil =>
      rw [ht, List.append_nil] at hs
      exact ⟨[], .blanks (hs ▸ hgap)⟩
    | cons c t =>
      obtain ⟨w, rest, hsplit, hw, hrest⟩ := exists_first_word (isBlank_head_dropWhile s c (by rw [ht]; rfl)) t
      rw [ht, hsplit, ← List.append_assoc] at hs
      have hshort : rest.length < n := by
        have hpos := List.length_pos_of_ne_nil hw.nonempty
        rw [← hn, ← hs, List.length_append, List.length_append]
        omega
      obtain ⟨ws, hws⟩ := ih rest.length hshort rest rfl
      exact ⟨w :: ws, hs ▸ .word hgap hw hrest hws⟩

/-- A text splits in one way only, which `words` finds. -/
theorem splitsInto_iff {s : List Char} {ws : List (List Char)} : SplitsInto s ws ↔ words s = ws := by
  constructor
  · exact SplitsInto.words_eq
  · rintro rfl
    obtain ⟨ws, hws⟩ := exists_splitsInto s
    rwa [hws.words_eq]

/-- The words of a text are words: there is something to them, and no blank in them. -/
theorem isWord_of_mem_words {s w : List Char} (h : w ∈ words s) : IsWord w := by
  obtain ⟨ws, hws⟩ := exists_splitsInto s
  rw [hws.words_eq] at h
  induction hws with
  | blanks _ => cases h
  | word _ hw _ _ ih =>
    rcases List.mem_cons.mp h with rfl | h
    · exact hw
    · exact ih h

/-- The words hold what is not blank, in order. -/
theorem flatten_words (s : List Char) : (words s).flatten = s.filter (!isBlank ·) := by
  obtain ⟨ws, hws⟩ := exists_splitsInto s
  rw [hws.words_eq]
  induction hws with
  | blanks hgap =>
    symm
    rw [List.flatten_nil, List.filter_eq_nil_iff]
    simpa using hgap
  | @word gap w rest ws hgap hw _ _ ih =>
    have hblanks : gap.filter (!isBlank ·) = [] := by
      rw [List.filter_eq_nil_iff]
      simpa using hgap
    have hsolid : w.filter (!isBlank ·) = w := List.filter_eq_self.mpr (by simpa using hw.solid)
    rw [List.filter_append, List.filter_append, hblanks, hsolid, List.nil_append, List.flatten_cons, ih]

/-! ## Words with single spaces between them -/

/-- Words joined with spaces are the words of the text they make. -/
theorem words_join {ws : List (List Char)} (h : ∀ w ∈ ws, IsWord w) : words (List.intercalate [' '] ws) = ws := by
  induction ws with
  | nil => rfl
  | cons w ws ih =>
    rw [List.forall_mem_cons] at h
    have hw : words w = [w] := words_of_not_isBlank h.1.nonempty h.1.solid
    cases ws with
    | nil => rwa [List.intercalate_singleton]
    | cons v ws =>
      rw [List.intercalate_cons_cons, words_gap (List.cons_ne_nil _ _) (by decide), hw, ih h.2, List.singleton_append]

/-- A text and its single line have the same words. -/
theorem words_singleLine (text : String) : words (singleLine text).toList = words text.toList := by
  rw [singleLine, String.toList_ofList, words_join fun _ => isWord_of_mem_words]

/-- A text on a single line: its blanks are spaces, it neither starts nor ends with one, and no two stand side by side. -/
structure IsSingleLine (s : List Char) : Prop where
  spaces : ∀ c ∈ s, isBlank c = true → c = ' '
  start : ∀ c ∈ s.head?, isBlank c = false
  last : ∀ c ∈ s.getLast?, isBlank c = false
  apart : s.IsChain fun c d => ¬ (isBlank c = true ∧ isBlank d = true)

/-- A word is a single line. -/
theorem IsWord.isSingleLine {w : List Char} (h : IsWord w) : IsSingleLine w where
  spaces c hc hblank := by
    rw [h.solid c hc] at hblank
    cases hblank
  start c hc := h.solid c (List.mem_of_mem_head? hc)
  last c hc := h.solid c (List.mem_of_getLast? hc)
  apart := by
    refine List.Pairwise.isChain (List.pairwise_of_forall_mem_list fun c hc d _ hblanks => ?_)
    rw [h.solid c hc] at hblanks
    cases hblanks.1

/-- A space between a word and a text on a single line keeps it on a single line. -/
theorem IsSingleLine.word_append {w s : List Char} (hw : IsWord w) (hne : s ≠ []) (h : IsSingleLine s) :
    IsSingleLine (w ++ [' '] ++ s) where
  spaces c hc hblank := by
    rw [List.mem_append, List.mem_append] at hc
    rcases hc with (hc | hc) | hc
    · exact hw.isSingleLine.spaces c hc hblank
    · exact List.mem_singleton.mp hc
    · exact h.spaces c hc hblank
  start c hc := by
    rw [List.append_assoc, List.head?_append_of_ne_nil _ hw.nonempty] at hc
    exact hw.isSingleLine.start c hc
  last c hc := by
    rw [List.getLast?_append_of_ne_nil _ hne] at hc
    exact h.last c hc
  apart := by
    rw [List.isChain_append, List.isChain_append]
    refine ⟨⟨hw.isSingleLine.apart, List.isChain_singleton _, ?_⟩, h.apart, ?_⟩
    · intro c hc d _ hblanks
      rw [hw.isSingleLine.last c hc] at hblanks
      cases hblanks.1
    · intro c _ d hd hblanks
      rw [h.start d hd] at hblanks
      cases hblanks.2

/-- Words with single blanks between them are a single line. -/
theorem isSingleLine_join {ws : List (List Char)} (h : ∀ w ∈ ws, IsWord w) :
    IsSingleLine (List.intercalate [' '] ws) := by
  induction ws with
  | nil => exact ⟨nofun, nofun, nofun, List.isChain_nil⟩
  | cons w ws ih =>
    rw [List.forall_mem_cons] at h
    cases ws with
    | nil =>
      rw [List.intercalate_singleton]
      exact h.1.isSingleLine
    | cons v ws =>
      have hne : List.intercalate [' '] (v :: ws) ≠ [] := by
        intro hnil
        have hwords := words_join h.2
        rw [hnil] at hwords
        cases hwords
      rw [List.intercalate_cons_cons]
      exact (ih h.2).word_append h.1 hne

/-! ## The normal form -/

/-- What flattening leaves is a single line. -/
theorem isSingleLine_singleLine (text : String) : IsSingleLine (singleLine text).toList := by
  rw [singleLine, String.toList_ofList]
  exact isSingleLine_join fun _ => isWord_of_mem_words

/-- Two texts have one single line exactly when they have the same words. -/
theorem singleLine_eq_iff {a b : String} : singleLine a = singleLine b ↔ words a.toList = words b.toList := by
  constructor
  · intro h
    rw [← words_singleLine, h, words_singleLine]
  · intro h
    rw [singleLine, singleLine, h]

/-- The single line is a normal form of a text. Its blanks are single spaces between words; what is not blank it keeps, in
order; it is its own single line; and another text has the same one exactly when both split into the same words. -/
theorem singleLine_normalForm (text : String) :
    IsSingleLine (singleLine text).toList ∧
      (singleLine text).toList.filter (!isBlank ·) = text.toList.filter (!isBlank ·) ∧
      singleLine (singleLine text) = singleLine text ∧
      ∀ other, singleLine other = singleLine text ↔
        ∃ ws, SplitsInto other.toList ws ∧ SplitsInto text.toList ws := by
  refine ⟨isSingleLine_singleLine text, ?_, ?_, fun other => ?_⟩
  · rw [← flatten_words, words_singleLine, flatten_words]
  · rw [singleLine_eq_iff, words_singleLine]
  · simp only [singleLine_eq_iff, splitsInto_iff, exists_eq_right']

/-- Separators of lines and of paragraphs, a no-break space and an ideographic space. -/
example : singleLine "\u2029 Deposit\u2028\u00a0 of\u3000 APT\r\n" = "Deposit of APT" := by decide

end DefiComposer.Text
