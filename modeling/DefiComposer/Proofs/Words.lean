import DefiComposer.Decimal.Reading
import DefiComposer.Text.Basic

/-!
# Words: what blanks do to the words of a text

A blank parts the words before it from those behind it (`words_append_cons`), and the other equations follow from that one:
blanks at either end of a text do not show in its words, and of the blanks between two words it does not matter which they
are and how many (`words_gap`). A text and its trimmed form have the same words, and the trimmed form has no blank at either
end.
-/

namespace DefiComposer.Text

/-! ## The words of a text that starts with a given character -/

/-- A blank in front of a text makes no word. -/
theorem words_cons_of_isBlank {b : Char} (hb : isBlank b = true) (s : List Char) : words (b :: s) = words s := by
  rw [words.eq_def]
  exact if_pos hb

theorem words_singleton {c : Char} (hc : isBlank c = false) : words [c] = [[c]] := by simp [words, hc]

/-- In front of a blank a character is a word of its own. -/
theorem words_cons_blank {c b : Char} (hc : isBlank c = false) (hb : isBlank b = true) (s : List Char) :
    words (c :: b :: s) = [c] :: words (b :: s) := by
  rw [words.eq_def]
  simp only [hc, hb, if_true, Bool.false_eq_true, if_false]

/-- In front of another character it joins that one's word. -/
theorem words_cons_cons {c d : Char} (hc : isBlank c = false) (hd : isBlank d = false) (s : List Char) :
    words (c :: d :: s) = (words (d :: s)).modifyHead (c :: ·) := by
  rw [words.eq_def]
  simp only [hc, hd, Bool.false_eq_true, if_false]

/-- A text that does not start with a blank has a word. -/
theorem words_ne_nil {c : Char} (hc : isBlank c = false) (s : List Char) : words (c :: s) ≠ [] := by
  induction s generalizing c with
  | nil => simp [words_singleton hc]
  | cons d s ih =>
    cases hd : isBlank d with
    | true => simp [words_cons_blank hc hd]
    | false => simpa [words_cons_cons hc hd] using ih hd

/-- A blank parts the words before it from those behind it. -/
theorem words_append_cons {b : Char} (hb : isBlank b = true) (s t : List Char) :
    words (s ++ b :: t) = words s ++ words t := by
  induction s with
  | nil => exact words_cons_of_isBlank hb t
  | cons c s ih =>
    cases hc : isBlank c with
    | true => rw [List.cons_append, words_cons_of_isBlank hc, words_cons_of_isBlank hc, ih]
    | false =>
      cases s with
      | nil =>
        calc
          words (c :: b :: t) = [c] :: words t := by rw [words_cons_blank hc hb, words_cons_of_isBlank hb]
          _ = words [c] ++ words t := by rw [words_singleton hc, List.singleton_append]
      | cons d s =>
        rw [List.cons_append] at ih
        cases hd : isBlank d with
        | true => simp [words_cons_blank hc hd, ih]
        | false =>
          obtain ⟨w, ws, hw⟩ := List.exists_cons_of_ne_nil (words_ne_nil hd s)
          simp [words_cons_cons hc hd, ih, hw]

/-! ## Blanks at either end, and between two words -/

/-- Whether a text has blanks only. -/
def allBlank (s : String) : Bool := s.toList.all isBlank

/-- The texts without words are those of blanks only. -/
theorem words_eq_nil_iff {s : List Char} : words s = [] ↔ s.all isBlank = true := by
  induction s with
  | nil => simp [words]
  | cons c s ih =>
    cases hc : isBlank c with
    | true => simp [words_cons_of_isBlank hc, hc, ih]
    | false => simp [words_ne_nil hc, hc]

/-- Blanks in front of a text make no word. -/
theorem words_blanks_append {u : List Char} (hu : u.all isBlank = true) (s : List Char) : words (u ++ s) = words s := by
  induction u with
  | nil => rfl
  | cons b u ih =>
    rw [List.all_cons, Bool.and_eq_true] at hu
    rw [List.cons_append, words_cons_of_isBlank hu.1, ih hu.2]

/-- A run of blanks, of whatever length above zero, parts the words before it from those behind it. -/
theorem words_gap {gap : List Char} (hne : gap ≠ []) (hgap : gap.all isBlank = true) (s t : List Char) :
    words (s ++ gap ++ t) = words s ++ words t := by
  obtain ⟨b, rest, rfl⟩ := List.exists_cons_of_ne_nil hne
  rw [List.all_cons, Bool.and_eq_true] at hgap
  rw [List.append_assoc, List.cons_append, words_append_cons hgap.1, words_blanks_append hgap.2]

theorem words_append_blanks {v : List Char} (hv : v.all isBlank = true) (s : List Char) : words (s ++ v) = words s := by
  by_cases hne : v = []
  · rw [hne, List.append_nil]
  · simpa [words] using words_gap hne hv s []

/-! ## Trimmed text -/

/-- Trimming the start keeps the words. -/
theorem words_trimStart (s : List Char) : words (trimStart s) = words s := by
  calc
    words (trimStart s) = words (s.takeWhile isBlank ++ trimStart s) := (words_blanks_append List.all_takeWhile _).symm
    _ = words s := by rw [trimStart, List.takeWhile_append_dropWhile]

/-- A text is what trimming leaves of its end, and blanks. -/
theorem trimEnd_append_blanks (s : List Char) : trimEnd s ++ (s.reverse.takeWhile isBlank).reverse = s := by
  rw [trimEnd, ← List.reverse_append, List.takeWhile_append_dropWhile, List.reverse_reverse]

theorem words_trimEnd (s : List Char) : words (trimEnd s) = words s := by
  have hblank : (s.reverse.takeWhile isBlank).reverse.all isBlank = true := by
    rw [List.all_reverse]
    exact List.all_takeWhile
  calc
    words (trimEnd s) = words (trimEnd s ++ (s.reverse.takeWhile isBlank).reverse) := (words_append_blanks hblank _).symm
    _ = words s := by rw [trimEnd_append_blanks]

/-- Trimming does not change the words. -/
theorem words_trim (s : List Char) : words (trim s) = words s := by rw [trim, words_trimEnd, words_trimStart]

/-- After dropping blanks the first character is none. -/
theorem isBlank_head_dropWhile (s : List Char) : ∀ c ∈ (s.dropWhile isBlank).head?, isBlank c = false := by
  intro c hc
  have h := List.head?_dropWhile_not isBlank s
  rwa [Option.mem_def.mp hc] at h

/-- A trimmed text does not end with a blank. -/
theorem isBlank_getLast_trim (s : List Char) : ∀ c ∈ (trim s).getLast?, isBlank c = false := by
  intro c hc
  rw [trim, trimEnd, List.getLast?_reverse] at hc
  exact isBlank_head_dropWhile _ c hc

theorem isBlank_head_trim (s : List Char) : ∀ c ∈ (trim s).head?, isBlank c = false := by
  intro c hc
  have hstart : c ∈ (trimStart s).head? := by
    rw [← trimEnd_append_blanks (trimStart s), List.head?_append, Option.mem_def, Option.or_eq_some_iff]
    exact Or.inl hc
  exact isBlank_head_dropWhile s c hstart

/-- No digit is a blank. -/
theorem isBlank_of_isDigit {c : Char} (h : Decimal.isDigit c = true) : isBlank c = false := by
  simp only [Decimal.isDigit, Bool.and_eq_true, decide_eq_true_eq, Char.le_def, UInt32.le_iff_toNat_le] at h
  have hlow : 48 ≤ c.toNat := h.1
  have hhigh : c.toNat ≤ 57 := h.2
  simp only [isBlank, Bool.or_eq_false_iff, Bool.and_eq_false_iff, decide_eq_false_iff_not, beq_eq_false_iff_ne]
  omega

/-- A text without blanks is trimmed. -/
theorem trim_of_not_isBlank {s : List Char} (h : ∀ c ∈ s, isBlank c = false) : trim s = s := by
  have hdrop : ∀ l : List Char, (∀ c ∈ l, isBlank c = false) → l.dropWhile isBlank = l := by
    intro l hl
    cases l with
    | nil => rfl
    | cons c l => exact List.dropWhile_cons_of_neg (by simp [hl c List.mem_cons_self])
  have hstart : trimStart s = s := hdrop s h
  rw [trim, hstart, trimEnd, hdrop _ (by simpa using h), List.reverse_reverse]

/-! ## Words of other texts -/

/-- A text without blanks is its own only word. -/
theorem words_of_not_isBlank {s : List Char} (hne : s ≠ []) (h : ∀ c ∈ s, isBlank c = false) : words s = [s] := by
  induction s with
  | nil => exact absurd rfl hne
  | cons c s ih =>
    rw [List.forall_mem_cons] at h
    cases s with
    | nil => exact words_singleton h.1
    | cons d s =>
      rw [words_cons_cons h.1 (h.2 d List.mem_cons_self), ih (List.cons_ne_nil d s) h.2]
      rfl

/-- A change of characters that keeps the blanks apart from the others changes the words one by one. -/
theorem words_map {f : Char → Char} (hf : ∀ c, isBlank (f c) = isBlank c) (s : List Char) :
    words (s.map f) = (words s).map (List.map f) := by
  induction s with
  | nil => rfl
  | cons c s ih =>
    rw [List.map_cons]
    cases hc : isBlank c with
    | true => rw [words_cons_of_isBlank hc, words_cons_of_isBlank ((hf c).trans hc), ih]
    | false =>
      have hfc := (hf c).trans hc
      cases s with
      | nil => simp [words_singleton hc, words_singleton hfc]
      | cons d s =>
        rw [List.map_cons] at ih
        cases hd : isBlank d with
        | true => simp [words_cons_blank hc hd, words_cons_blank hfc ((hf d).trans hd), ih]
        | false =>
          simp only [List.map_cons, words_cons_cons hc hd, words_cons_cons hfc ((hf d).trans hd), ih]
          cases words (d :: s) <;> rfl

end DefiComposer.Text
