import DefiComposer.Proofs.JsonNumbers
import DefiComposer.Proofs.Maps

/-!
# JSON text: what the compact text of a value reads as

The compact text of any value is read to its end, as the value with its numbers re-read (`Json.parse?_compact`). Strings, the
order of the members, repeated names and empty lists come back as they are; a garbled value, which has no text, comes back
as the `null` that is written for it.
-/

namespace DefiComposer

namespace Json

/-! ## Strings -/

/-- The characters with an escape of two characters. -/
def shortEscapes : List Char := ['"', '\\', '\n', '\r', '\t', Char.ofNat 8, Char.ofNat 12]

/-- What is written for a character is read as one piece, which is plain exactly if nothing is escaped. -/
structure Writes (c : Char) (piece : Piece) : Prop where
  read : ∀ rest, pieces? (escapedChar c ++ rest) = (pieces? rest).map fun (pieces, after) => (piece :: pieces, after)
  text : ∀ pieces, textOf? (piece :: pieces) = (textOf? pieces).map (c :: ·)
  plain : piece.isPlain = (escapedChar c == [c])

/-- The characters with short escapes are written by them. -/
theorem writes_short : ∀ c ∈ shortEscapes, Writes c (.short c) := by
  simp only [shortEscapes, List.forall_mem_cons]
  refine ⟨?_, ?_, ?_, ?_, ?_, ?_, ?_, nofun⟩
  all_goals exact ⟨fun _ => rfl, fun _ => rfl, by decide⟩

/-- Any other character is written as a code unit if it is a control character, and else as it is. -/
theorem escapedChar_of_not_mem {c : Char} (h : c ∉ shortEscapes) : escapedChar c =
    if c.toNat < 0x20 then ['\\', 'u', '0', '0', Nat.digitChar (c.toNat / 16), Nat.digitChar (c.toNat % 16)] else [c] := by
  simp only [shortEscapes, List.mem_cons, List.not_mem_nil, or_false, not_or] at h
  obtain ⟨hquote, hbackslash, hn, hr, ht, hb, hf⟩ := h
  have hcode : ∀ n, c ≠ Char.ofNat n → c.toNat ≠ n := by
    rintro n hne rfl
    exact hne (Char.ofNat_toNat c).symm
  rw [escapedChar, if_neg hquote, if_neg hbackslash, if_neg hn, if_neg hr, if_neg ht, if_neg (hcode 8 hb),
    if_neg (hcode 12 hf)]

/-- Two hexadecimal digits give back a control character. -/
theorem unit?_of_lt : ∀ n < 0x20, unit? '0' '0' (Nat.digitChar (n / 16)) (Nat.digitChar (n % 16)) = some n := by
  decide

/-- The other control characters are written by their codes. -/
theorem writes_unit {c : Char} (hshort : c ∉ shortEscapes) (h : c.toNat < 0x20) : Writes c (.unit c.toNat) := by
  have hescaped := escapedChar_of_not_mem hshort
  rw [if_pos h] at hescaped
  have hhigh : isHighUnit c.toNat = false := by simp [isHighUnit]; omega
  have hlow : isLowUnit c.toNat = false := by simp [isLowUnit]; omega
  constructor
  · intro rest
    simp [hescaped, pieces?, unit?_of_lt _ h]
  · intro pieces
    rw [textOf?.eq_def]
    simp [hhigh, hlow, Char.ofNat_toNat]
  · simp [hescaped, Piece.isPlain]

/-- All other characters are written as they are. -/
theorem writes_plain {c : Char} (hshort : c ∉ shortEscapes) (h : ¬ c.toNat < 0x20) : Writes c (.plain c) := by
  have hescaped := escapedChar_of_not_mem hshort
  rw [if_neg h] at hescaped
  have hquote : c ≠ '"' := fun hc => hshort (hc ▸ by decide)
  have hbackslash : c ≠ '\\' := fun hc => hshort (hc ▸ by decide)
  refine ⟨fun rest => ?_, fun _ => rfl, by simp [hescaped, Piece.isPlain]⟩
  rw [hescaped, List.singleton_append, pieces?.eq_def]
  split <;> rename_i heq <;> cases heq
  · exact absurd rfl hquote
  · exact absurd rfl hbackslash
  · exact absurd rfl hbackslash
  · exact if_neg (not_or.mpr ⟨h, hbackslash⟩)

/-- Each character is written by some piece. -/
theorem exists_writes (c : Char) : ∃ piece, Writes c piece := by
  by_cases hshort : c ∈ shortEscapes
  · exact ⟨_, writes_short c hshort⟩
  by_cases h : c.toNat < 0x20
  · exact ⟨_, writes_unit hshort h⟩
  · exact ⟨_, writes_plain hshort h⟩

/-- The pieces of an escaped text: together they write the text, and they are plain exactly if nothing is escaped. -/
theorem exists_pieces (cs : List Char) : ∃ pieces : List Piece,
    (∀ rest, pieces? (cs.flatMap escapedChar ++ '"' :: rest) = some (pieces, rest)) ∧ textOf? pieces = some cs ∧
      pieces.all Piece.isPlain = cs.all fun c => escapedChar c == [c] := by
  induction cs with
  | nil => exact ⟨[], fun _ => rfl, rfl, rfl⟩
  | cons c cs ih =>
    obtain ⟨pieces, hpieces, htext, hplain⟩ := ih
    obtain ⟨piece, hpiece⟩ := exists_writes c
    refine ⟨piece :: pieces, fun rest => ?_, ?_, ?_⟩
    · rw [List.flatMap_cons, List.append_assoc, hpiece.read, hpieces]
      rfl
    · rw [hpiece.text, htext]
      rfl
    · rw [List.all_cons, List.all_cons, hpiece.plain, hplain]

/-- A quoted text is read to its closing quote, as the text and as the name that it is. -/
theorem pieces?_quoted (text : String) : ∃ pieces : List Piece,
    (∀ rest, quoted text ++ rest = '"' :: (text.toList.flatMap escapedChar ++ '"' :: rest)) ∧
      (∀ rest, pieces? (text.toList.flatMap escapedChar ++ '"' :: rest) = some (pieces, rest)) ∧
        ofPieces pieces = .string text ∧ Name.ofPieces? pieces = some (Name.ofString text) := by
  obtain ⟨pieces, hpieces, htext, hplain⟩ := exists_pieces text.toList
  refine ⟨pieces, fun rest => by simp [quoted], hpieces, ?_, ?_⟩
  · simp only [ofPieces, htext, String.ofList_toList]
  · simp only [Name.ofPieces?, htext, Option.map_some, String.ofList_toList, hplain]
    rfl

/-! ## Values -/

mutual

/-- What the text of a value reads as: its numbers re-read, names escaped where they must be, `null` for what is garbled. -/
def reread : Json → Json
  | .null => .null
  | .garbled => .null
  | .bool b => .bool b
  | .number n => .number n.reread
  | .string s => .string s
  | .array items => .array (rereadItems items)
  | .object members => .object (rereadMembers members)

/-- The items, each re-read. -/
def rereadItems : List Json → List Json
  | [] => []
  | item :: items => item.reread :: rereadItems items

/-- The members, each re-read. -/
def rereadMembers : List (Name × Json) → List (Name × Json)
  | [] => []
  | (name, value) :: members => (Name.ofString name.text, value.reread) :: rereadMembers members

end

/-- The members of an object whose names are all texts. -/
theorem ofMembers_some (members : List (Name × Json)) :
    ofMembers (members.map fun member => (some member.1, member.2)) = .object members := by
  have hmap : (members.map fun member => (some member.1, member.2)).mapM
      (fun member : Option Name × Json => member.1.map (·, member.2)) = some members :=
    mapM_of_forall fun _ _ => rfl
  simp only [ofMembers, hmap]

/-- A number begins with its sign or with a digit. -/
theorem Number.exists_head (n : Number) : ∃ c rest, n.text = c :: rest ∧ (c = '-' ∨ Decimal.isDigit c = true) := by
  obtain ⟨negative, scan, htext, hdigits, hnumber⟩ := n.exists_scan
  cases negative with
  | true => exact ⟨'-', scan.text, htext, Or.inl rfl⟩
  | false =>
    obtain ⟨whole, fraction, exponent⟩ := scan
    cases whole with
    | nil => simp [isNumber] at hnumber
    | cons c whole =>
      have hc := hdigits.whole
      rw [List.all_cons, Bool.and_eq_true] at hc
      exact ⟨c, _, htext, Or.inr hc.1⟩

/-- Blanks are left out only where there are some. -/
theorem skipSpace_cons {c : Char} (hc : isSpace c = false) (rest : List Char) : skipSpace (c :: rest) = c :: rest :=
  List.dropWhile_cons_of_neg (by simp [hc])

/-- What starts a number is no space. -/
theorem isSpace_of_number {c : Char} (hc : c = '-' ∨ Decimal.isDigit c = true) : isSpace c = false := by
  rcases hc with rfl | hc
  · rfl
  · by_contra hs
    simp only [isSpace, Bool.not_eq_false, Bool.or_eq_true, beq_iff_eq] at hs
    rcases hs with ((rfl | rfl) | rfl) | rfl <;> cases hc

/-- What begins with a sign or a digit is read as a number. -/
theorem value?_number {c : Char} (hc : c = '-' ∨ Decimal.isDigit c = true) (fuel : Nat) (rest : List Char) :
    value? (fuel + 1) (c :: rest) = (number? (c :: rest)).map fun (n, rest) => (.number n, rest) := by
  rw [value?, skipSpace_cons (isSpace_of_number hc)]
  split <;> rename_i heq
  case h_7 => rfl
  all_goals
    obtain ⟨rfl, -⟩ := List.cons.inj heq
    exact absurd hc (by decide)

/-- After an opening bracket stands the closing one, or there are items. -/
theorem value?_bracket (fuel : Nat) {c : Char} (hc : isSpace c = false) (hclose : c ≠ ']') (rest : List Char) :
    value? (fuel + 1) ('[' :: c :: rest) = (items? fuel (c :: rest)).map fun (items, rest) => (.array items, rest) := by
  have hopen : skipSpace ('[' :: c :: rest) = '[' :: c :: rest := rfl
  simp only [value?, hopen, skipSpace_cons hc]
  split
  · rename_i heq
    exact absurd (List.cons.inj heq).1 hclose
  · rfl

/-- After an opening brace stands the closing one, or there are members. -/
theorem value?_brace (fuel : Nat) {c : Char} (hc : isSpace c = false) (hclose : c ≠ '\x7d') (rest : List Char) :
    value? (fuel + 1) ('\x7b' :: c :: rest) =
      (members? fuel (c :: rest)).map fun (members, rest) => (ofMembers members, rest) := by
  have hopen : skipSpace ('\x7b' :: c :: rest) = '\x7b' :: c :: rest := rfl
  simp only [value?, hopen, skipSpace_cons hc]
  split
  · rename_i heq
    exact absurd (List.cons.inj heq).1 hclose
  · rfl

/-- The text of a value begins with no blank, and with no closing bracket or brace. -/
theorem exists_head (j : Json) : ∃ c rest, compactText j = c :: rest ∧ isSpace c = false ∧ c ≠ ']' ∧ c ≠ '\x7d' := by
  cases j with
  | null => exact ⟨_, _, rfl, by decide⟩
  | garbled => exact ⟨_, _, rfl, by decide⟩
  | bool b => cases b <;> exact ⟨_, _, rfl, by decide⟩
  | number n =>
    obtain ⟨c, rest, htext, hc⟩ := n.exists_head
    refine ⟨c, rest, htext, isSpace_of_number hc, ?_, ?_⟩
    · rintro rfl
      exact absurd hc (by decide)
    · rintro rfl
      exact absurd hc (by decide)
  | string s => exact ⟨_, _, rfl, by decide⟩
  | array items => cases items <;> exact ⟨_, _, rfl, by decide⟩
  | object members => cases members <;> exact ⟨_, _, rfl, by decide⟩

/-- The items after the first one begin with a comma or the closing bracket, which end a number. -/
theorem endsNumber_compactItems (items : List Json) (rest : List Char) :
    Decimal.EndsNumber (compactItems items ++ rest) := by
  cases items <;> rintro c ⟨⟩ <;> decide

/-- The members after the first one begin with a comma or the closing brace, which end a number. -/
theorem endsNumber_compactMembers (members : List (Name × Json)) (rest : List Char) :
    Decimal.EndsNumber (compactMembers members ++ rest) := by
  cases members <;> rintro c ⟨⟩ <;> decide

/-! ### By the bound on the depth

A bound that is longer than the text is never reached, since each bracket of a nesting is a character of its own. -/

/-- With a bound, the texts of values are read to their end, whatever follows, as long as it does not continue a number. -/
def ReadsValues (fuel : Nat) : Prop := ∀ (j : Json) (rest : List Char), (compactText j).length < fuel →
  Decimal.EndsNumber rest → value? fuel (compactText j ++ rest) = some (j.reread, rest)

/-- With a bound, the items of an array are read to the closing bracket. -/
def ReadsItems (fuel : Nat) : Prop := ∀ (item : Json) (items : List Json) (rest : List Char),
  (compactText item ++ compactItems items).length < fuel →
    items? fuel (compactText item ++ (compactItems items ++ rest)) = some (rereadItems (item :: items), rest)

/-- With a bound, the members of an object are read to the closing brace. -/
def ReadsMembers (fuel : Nat) : Prop := ∀ (name : Name) (value : Json) (members : List (Name × Json)) (rest : List Char),
  (quoted name.text ++ ':' :: compactText value ++ compactMembers members).length < fuel →
    members? fuel (quoted name.text ++ ':' :: (compactText value ++ (compactMembers members ++ rest))) =
      some ((rereadMembers ((name, value) :: members)).map fun member => (some member.1, member.2), rest)

variable {fuel : Nat}

/-- With fuel for one more level, values are read back, if items and members are with less. -/
theorem readsValues_succ (hitems : ReadsItems fuel) (hmembers : ReadsMembers fuel) : ReadsValues (fuel + 1) := by
  intro j rest hf hr
  match j with
  | .null => rfl
  | .garbled => rfl
  | .bool true => rfl
  | .bool false => rfl
  | .number n =>
    obtain ⟨c, s, htext, hc⟩ := n.exists_head
    have hread := number?_text n hr
    rw [htext, List.cons_append] at hread
    rw [compactText, htext, List.cons_append, value?_number hc, hread]
    rfl
  | .string s =>
    obtain ⟨pieces, hquoted, hpieces, hof, -⟩ := pieces?_quoted s
    rw [compactText, hquoted, value?, skipSpace_cons (by decide)]
    simp only [hpieces, Option.map_some, hof, reread]
  | .array [] => rfl
  | .array (item :: items) =>
    obtain ⟨c, s, htext, hc, hclose, -⟩ := item.exists_head
    have hread := hitems item items rest (by simpa [compactText] using hf)
    rw [htext, List.cons_append] at hread
    rw [compactText, htext, List.cons_append, List.cons_append, List.append_assoc, List.cons_append,
      value?_bracket fuel hc hclose, hread]
    rfl
  | .object [] => rfl
  | .object ((name, value) :: members) =>
    obtain ⟨pieces, hquoted, -⟩ := pieces?_quoted name.text
    have hread := hmembers name value members rest (by simpa [compactText] using hf)
    rw [hquoted] at hread
    have htext : compactText (.object ((name, value) :: members)) ++ rest =
        '\x7b' :: '"' :: (name.text.toList.flatMap escapedChar ++
          '"' :: ':' :: (compactText value ++ (compactMembers members ++ rest))) := by
      simp [compactText, quoted]
    rw [htext, value?_brace fuel (by decide) (by decide), hread]
    simp only [Option.map_some, ofMembers_some]
    rfl

theorem readsItems_succ (hvalues : ReadsValues fuel) (hitems : ReadsItems fuel) : ReadsItems (fuel + 1) := by
  intro item items rest hf
  rw [List.length_append] at hf
  have htail : 0 < (compactItems items).length := by cases items <;> simp [compactItems]
  have hitem := hvalues item (compactItems items ++ rest) (by omega) (endsNumber_compactItems items rest)
  simp only [items?, hitem]
  cases items with
  | nil => rfl
  | cons next items =>
    have hread := hitems next items rest (by simp [compactItems] at hf ⊢; omega)
    rw [compactItems, List.cons_append, List.cons_append, skipSpace_cons (by decide), List.append_assoc]
    simp only [hread]
    rfl

theorem readsMembers_succ (hvalues : ReadsValues fuel) (hmembers : ReadsMembers fuel) : ReadsMembers (fuel + 1) := by
  intro name value members rest hf
  obtain ⟨pieces, hquoted, hpieces, -, hname⟩ := pieces?_quoted name.text
  have hvalue := hvalues value (compactMembers members ++ rest) (by simp at hf; omega)
    (endsNumber_compactMembers members rest)
  have hquote : skipSpace ('"' :: (name.text.toList.flatMap escapedChar ++
      '"' :: ':' :: (compactText value ++ (compactMembers members ++ rest)))) = _ := skipSpace_cons (by decide) _
  have hcolon : skipSpace (':' :: (compactText value ++ (compactMembers members ++ rest))) = _ :=
    skipSpace_cons (by decide) _
  simp only [hquoted, members?, hquote, hpieces, hcolon, hvalue]
  cases members with
  | nil =>
    rw [hname]
    rfl
  | cons member members =>
    obtain ⟨next, item⟩ := member
    have hread := hmembers next item members rest (by simp [compactMembers] at hf ⊢; omega)
    have htext : skipSpace (compactMembers ((next, item) :: members) ++ rest) =
        ',' :: (quoted next.text ++ ':' :: (compactText item ++ (compactMembers members ++ rest))) := by
      rw [compactMembers]
      simp only [List.cons_append, List.append_assoc]
      exact skipSpace_cons (by decide) _
    simp only [htext, hread, hname]
    rfl

/-- Whatever the fuel, values within its reach are read back, and so are items and members. -/
theorem reads (fuel : Nat) : ReadsValues fuel ∧ ReadsItems fuel ∧ ReadsMembers fuel := by
  induction fuel with
  | zero => exact ⟨nofun, nofun, nofun⟩
  | succ fuel ih =>
    obtain ⟨hvalues, hitems, hmembers⟩ := ih
    exact ⟨readsValues_succ hitems hmembers, readsItems_succ hvalues hitems, readsMembers_succ hvalues hmembers⟩

/-- The compact text of a value is read as the value with its numbers re-read. -/
theorem parse?_compact (j : Json) : parse? j.compact = some j.reread := by
  have hvalue := (reads ((compactText j).length + 1)).1 j [] (Nat.lt_succ_self _) Decimal.endsNumber_nil
  rw [List.append_nil] at hvalue
  simp only [parse?, compact, String.toList_ofList, hvalue]
  rfl

end Json

end DefiComposer
