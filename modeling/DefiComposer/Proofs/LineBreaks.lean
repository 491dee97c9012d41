import DefiComposer.Decimal.Writing
import DefiComposer.Proofs.SingleLine

/-!
# Line breaks: texts that stay on one line

The characters that may end a line are all blanks, so a text whose words stand with one space between them holds none of
them (`Text.not_mem_singleLine`). None of them is a printable character of ASCII, and numbers are written with such
characters alone.
-/

namespace DefiComposer

namespace Text

/-- The characters that end a line: the line feed, the line tabulation, the form feed, the carriage return, the next line,
and the separators of lines and of paragraphs. -/
def lineBreaks : List Char := ['\n', '\x0b', '\x0c', '\r', '\u0085', '\u2028', '\u2029']

/-- None of the texts holds a character. -/
def FreeOf (b : Char) (texts : List String) : Prop := ∀ text ∈ texts, b ∉ text.toList

@[simp]
theorem freeOf_nil (b : Char) : FreeOf b [] := fun _ h => by cases h

@[simp]
theorem freeOf_cons (b : Char) (text : String) (texts : List String) :
    FreeOf b (text :: texts) ↔ b ∉ text.toList ∧ FreeOf b texts :=
  List.forall_mem_cons

@[simp]
theorem freeOf_append (b : Char) (l l' : List String) : FreeOf b (l ++ l') ↔ FreeOf b l ∧ FreeOf b l' :=
  List.forall_mem_append

/-- Texts made from a list are free of a character if each of them is. -/
theorem freeOf_map {α : Type} {b : Char} {f : α → String} {l : List α} :
    FreeOf b (l.map f) ↔ ∀ a ∈ l, b ∉ (f a).toList :=
  List.forall_mem_map

/-- Lists of texts are free of a character if each of them is. -/
theorem freeOf_flatMap {α : Type} {b : Char} {f : α → List String} {l : List α} :
    FreeOf b (l.flatMap f) ↔ ∀ a ∈ l, FreeOf b (f a) :=
  List.forall_mem_flatMap

/-- Every line break is a blank, so flattening takes it out. -/
theorem isBlank_of_mem_lineBreaks {b : Char} (h : b ∈ lineBreaks) : isBlank b = true := by
  have hall : lineBreaks.all isBlank = true := by decide
  exact List.all_eq_true.mp hall b h

/-- Whether a character is a printable one of ASCII, the space included. -/
def isPrintable (c : Char) : Bool := 32 ≤ c.toNat && c.toNat ≤ 126

/-- What consists of printable characters holds no line break. -/
theorem not_mem_of_isPrintable {b : Char} (hb : b ∈ lineBreaks) {l : List Char} (h : l.all isPrintable = true) :
    b ∉ l := by
  have hall : lineBreaks.all (fun b => !isPrintable b) = true := by decide
  intro hl
  have hno := List.all_eq_true.mp hall b hb
  rw [List.all_eq_true.mp h b hl] at hno
  cases hno

/-! ## Joined and flattened text -/

/-- What stands in several texts with a text between them stands in that or in one of them. -/
theorem mem_of_mem_intercalate {sep : List Char} {l : List (List Char)} {c : Char} (h : c ∈ List.intercalate sep l) :
    c ∈ sep ∨ ∃ w ∈ l, c ∈ w := by
  induction l with
  | nil => cases h
  | cons w l ih =>
    cases l with
    | nil =>
      rw [List.intercalate_singleton] at h
      exact Or.inr ⟨w, List.mem_cons_self, h⟩
    | cons v l =>
      rw [List.intercalate_cons_cons, List.mem_append, List.mem_append] at h
      rcases h with (h | h) | h
      · exact Or.inr ⟨w, List.mem_cons_self, h⟩
      · exact Or.inl h
      · rcases ih h with h | ⟨u, hu, hc⟩
        · exact Or.inl h
        · exact Or.inr ⟨u, List.mem_cons_of_mem w hu, hc⟩

/-- Flattened text holds no line break: its blanks are spaces. -/
theorem not_mem_singleLine {b : Char} (hb : b ∈ lineBreaks) (text : String) : b ∉ (singleLine text).toList := by
  have hspace : ' ' ∉ lineBreaks := by decide
  intro h
  rw [(isSingleLine_singleLine text).spaces b h (isBlank_of_mem_lineBreaks hb)] at hb
  exact hspace hb

end Text

/-! ## Numbers -/

namespace Decimal

open Text

/-- Digits are printable. -/
theorem isPrintable_of_isDigit {c : Char} (h : c.isDigit = true) : isPrintable c = true := by
  simp only [Char.isDigit, ge_iff_le, Bool.and_eq_true, decide_eq_true_eq] at h
  simp only [isPrintable, Bool.and_eq_true, decide_eq_true_eq]
  exact ⟨Nat.le_trans (by decide : 32 ≤ 48) h.1, Nat.le_trans h.2 (by decide : 57 ≤ 126)⟩

theorem all_isPrintable_digits (n : Nat) : (digits n).all isPrintable = true := by
  rw [List.all_eq_true]
  intro c hc
  exact isPrintable_of_isDigit (Nat.isDigit_of_mem_toDigits (by decide) (by decide) hc)

/-- Putting a point among digits, and zeros around them, keeps them printable. -/
theorem all_isPrintable_positionalText {ds : List Char} (hds : ds.all isPrintable = true) (point : Int) :
    (positionalText [] ds point).all isPrintable = true := by
  have hzeros : ∀ n, (List.replicate n '0').all isPrintable = true := by
    intro n
    rw [List.all_replicate]
    split <;> decide
  have htake : ∀ n, (ds.take n).all isPrintable = true :=
    fun n => List.all_eq_true.mpr fun c hc => List.all_eq_true.mp hds c (List.mem_of_mem_take hc)
  have hdrop : ∀ n, (ds.drop n).all isPrintable = true :=
    fun n => List.all_eq_true.mpr fun c hc => List.all_eq_true.mp hds c (List.mem_of_mem_drop hc)
  have hpoint : isPrintable '.' = true := by decide
  have hstart : ['0', '.'].all isPrintable = true := by decide
  unfold positionalText
  split
  · rw [List.all_append, List.all_append, hstart, hzeros, hds]
    rfl
  · split
    · rw [List.all_append, List.all_append, hds, hzeros]
      rfl
    · rw [List.all_append, List.all_cons, htake, hdrop, hpoint]
      rfl

/-- A decimal in plain layout is written with printable characters. -/
theorem all_isPrintable_text (d : Decimal) : (plain.text d).all isPrintable = true := by
  have hm : (plain.magnitude d).all isPrintable = true := by
    unfold Layout.magnitude
    split
    · decide
    · exact all_isPrintable_positionalText (all_isPrintable_digits d.coefficient) d.point
  have hsign : isPrintable '-' = true := by decide
  unfold Layout.text
  split
  · rw [List.all_cons, hsign, hm]
    rfl
  · exact hm

end Decimal

/-- So is a number, whether it is finite or not. -/
theorem all_isPrintable_plainText (x : Float) : (plainText x).toList.all Text.isPrintable = true := by
  unfold plainText
  split
  · rename_i d _
    rw [String.toList_ofList]
    exact d.all_isPrintable_text
  · split
    · decide
    · split <;> decide

end DefiComposer
