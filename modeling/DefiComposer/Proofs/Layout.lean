import DefiComposer.Move.Module
import DefiComposer.Proofs.LineBreaks
import Mathlib.Data.List.Chain
import Mathlib.Data.List.Forall2

/-!
# Layout: where the lines of a module stand

The text of a module is laid out by its lines alone. A line opens a declaration when it begins with one level of indentation
and a keyword; these lines stand for the items, one each and in their order (`Move.Declares`), since every other line is a
comment, is indented deeper, or begins with another word. The loop over the items writes an empty line behind what it closes.
Read from the front, each record, each function and each run of constants has an empty line above it, and one more ends the
items (`Move.spaced`): so an empty line stands on either side of a record, and no two of them meet. `MoveModule.HasLayout`
gathers what this comes to, and every module whose texts have one line each has it (`MoveModule.text_hasLayout`).
-/

namespace DefiComposer

namespace Text

/-- The lines of a text: what stands before, between and behind its line feeds. -/
def lines (text : String) : List String := (text.toList.splitOn '\n').map String.ofList

/-- Lines that are ended and joined are the lines of the text, with nothing behind the last line feed. -/
theorem lines_join {l : List String} (h : FreeOf '\n' l) : lines (String.join (l.map (· ++ "\n"))) = l ++ [""] := by
  induction l with
  | nil => rfl
  | cons line l ih =>
    rw [freeOf_cons] at h
    have hline : (line ++ "\n" ++ String.join (l.map (· ++ "\n"))).toList =
        line.toList ++ '\n' :: (String.join (l.map (· ++ "\n"))).toList := by
      simp
    rw [List.map_cons, String.join_cons, lines, hline, List.splitOn_append_cons_self, List.splitOn_eq_singleton h.1,
      List.map_append, List.map_singleton, String.ofList_toList]
    exact congrArg (line :: ·) (ih h.2)

/-! ## Empty lines -/

/-- No two lines that follow each other are empty. -/
def NoGap (l : List String) : Prop := l.IsChain fun a b => a ≠ "" ∨ b ≠ ""

/-- Lines that are not empty leave no gap in front of others. -/
theorem NoGap.append {l l' : List String} (hl : "" ∉ l) (h : NoGap l') : NoGap (l ++ l') := by
  induction l with
  | nil => exact h
  | cons line l ih =>
    rw [List.mem_cons, not_or] at hl
    exact List.isChain_cons.mpr ⟨fun _ _ => Or.inl fun he => hl.1 he.symm, ih hl.2⟩

/-- Nor does an empty line in front of some that are not empty. -/
theorem NoGap.spaced {line : String} {l l' : List String} (hl : "" ∉ line :: l) (h : NoGap l') :
    NoGap ("" :: (line :: l ++ l')) := by
  refine List.isChain_cons.mpr ⟨fun next hnext => Or.inr ?_, NoGap.append hl h⟩
  obtain rfl : line = next := Option.some.inj hnext
  rintro rfl
  exact hl List.mem_cons_self

/-- Where there is no gap, no two empty lines follow one another. -/
theorem NoGap.not_adjacent {l : List String} (h : NoGap l) : ¬ ["", ""] <:+: l := by
  intro hinfix
  simpa using h.infix hinfix

/-- Above an empty line stands none, and none below it. -/
theorem NoGap.around {above below : List String} (h : NoGap (above ++ "" :: below)) :
    above.getLast? ≠ some "" ∧ below.head? ≠ some "" := by
  obtain ⟨-, hbelow, hjoin⟩ := List.isChain_append.mp h
  constructor
  · intro hlast
    simpa using hjoin "" hlast "" rfl
  · intro hhead
    simpa using (List.isChain_cons.mp hbelow).1 "" hhead

end Text

namespace Move

/-! ## The texts of a module -/

/-- The texts that a constant holds. -/
def Constant.strings (c : Constant) : List String := c.name :: c.type :: c.value :: c.comment.toList

/-- The texts that a field holds. -/
def Field.strings (f : Field) : List String := f.name :: f.type :: f.comment.toList

/-- The texts that a record holds. -/
def Record.strings (r : Record) : List String :=
  r.name :: r.doc.toList ++ r.abilities ++ r.fields.flatMap Field.strings

/-- The texts that a function holds. -/
def Function.strings (f : Function) : List String :=
  f.name :: f.doc.toList ++ f.parameters.flatMap (fun p => [p.1, p.2]) ++ f.acquires.toList ++ f.body

/-- The texts that an item holds. -/
def Item.strings : Item → List String
  | constant c => c.strings
  | record r => r.strings
  | function f => f.strings

end Move

/-- The texts that a module holds. -/
def MoveModule.strings (m : MoveModule) : List String :=
  m.header :: m.name :: m.address.toList ++ m.uses ++ m.wiring ++ m.items.flatMap Move.Item.strings

namespace Move

/-! ## Blocks -/

/-- The lines of a record from the comment above it to the closing brace. -/
def Record.block (r : Record) : List String :=
  docLines r.doc ++ indent ("struct " ++ r.name ++ abilityText r.abilities ++ " \x7b") :: r.fields.map Field.line ++
    [indent "\x7d"]

/-- The lines of a function from the comment above it to the closing brace. -/
def Function.block (f : Function) : List String :=
  docLines f.doc ++
    indent ("public fun " ++ f.name ++ "(" ++ parameterText f.parameters ++ ")" ++ acquiresText f.acquires ++ " \x7b") ::
    f.body.map (fun line => indent (indent line)) ++ [indent "\x7d"]

/-- The lines of a record are its block and an empty line. -/
theorem Record.lines_eq (r : Record) : r.lines = r.block ++ [""] := by
  simp [lines, block]

theorem Function.lines_eq (f : Function) : f.lines = f.block ++ [""] := by
  simp [lines, block]

namespace Item

/-- The lines of an item, without the empty ones around it. -/
def block : Item → List String
  | constant c => [c.line]
  | record r => r.block
  | function f => f.block

/-- Whether an item is a constant. -/
def isConstant : Item → Bool
  | constant _ => true
  | _ => false

end Item

/-! ## Texts of one line -/

/-- A comment behind a line keeps it one line, if the text of the comment is one. -/
theorem not_mem_trailing {comment : Option String} (h : Text.FreeOf '\n' comment.toList) :
    '\n' ∉ (trailing comment).toList := by
  cases comment with
  | none => simp [trailing]
  | some text => simpa [trailing] using h

/-- The comment above a declaration is one line, if its text is. -/
theorem freeOf_docLines {doc : Option String} (h : Text.FreeOf '\n' doc.toList) : Text.FreeOf '\n' (docLines doc) := by
  cases doc with
  | none => exact Text.freeOf_nil _
  | some text => simpa [docLines, indent] using h

/-- Texts of one line with commas between them are a text of one line. -/
theorem not_mem_intercalate {texts : List String} (h : Text.FreeOf '\n' texts) :
    '\n' ∉ (String.intercalate ", " texts).toList := by
  intro hmem
  rw [String.toList_intercalate] at hmem
  rcases Text.mem_of_mem_intercalate hmem with hcomma | ⟨chars, hchars, hin⟩
  · exact absurd hcomma (by decide)
  · obtain ⟨text, htext, rfl⟩ := List.mem_map.mp hchars
    exact h text htext hin

/-- A constant is one line, if its parts are. -/
theorem Constant.not_mem_line {c : Constant} (h : Text.FreeOf '\n' c.strings) : '\n' ∉ c.line.toList := by
  simp only [Constant.strings, Text.freeOf_cons] at h
  obtain ⟨hname, htype, hvalue, hcomment⟩ := h
  simp [Constant.line, indent, hname, htype, hvalue, not_mem_trailing hcomment]

theorem Field.not_mem_line {f : Field} (h : Text.FreeOf '\n' f.strings) : '\n' ∉ f.line.toList := by
  simp only [Field.strings, Text.freeOf_cons] at h
  obtain ⟨hname, htype, hcomment⟩ := h
  simp [Field.line, indent, hname, htype, not_mem_trailing hcomment]

/-- The lines of a record hold no line break, if its parts do not. -/
theorem Record.freeOf_block {r : Record} (h : Text.FreeOf '\n' r.strings) : Text.FreeOf '\n' r.block := by
  simp only [Record.strings, List.cons_append, Text.freeOf_cons, Text.freeOf_append, Text.freeOf_flatMap] at h
  obtain ⟨hname, ⟨hdoc, habilities⟩, hfields⟩ := h
  have hability : '\n' ∉ (abilityText r.abilities).toList := by
    unfold abilityText
    split
    · simp
    · simpa using not_mem_intercalate habilities
  simp only [Record.block, Text.freeOf_cons, Text.freeOf_append, Text.freeOf_map]
  refine ⟨⟨freeOf_docLines hdoc, ?_, fun f hf => Field.not_mem_line (hfields f hf)⟩, by simp [indent]⟩
  simp [indent, hname, hability]

theorem Function.freeOf_block {f : Function} (h : Text.FreeOf '\n' f.strings) : Text.FreeOf '\n' f.block := by
  simp only [Function.strings, List.cons_append, Text.freeOf_cons, Text.freeOf_append, Text.freeOf_flatMap,
    Text.freeOf_nil] at h
  obtain ⟨hname, ⟨⟨hdoc, hparameters⟩, hacquires⟩, hbody⟩ := h
  have hparameter : '\n' ∉ (parameterText f.parameters).toList := by
    refine not_mem_intercalate (Text.freeOf_map.mpr fun p hp => ?_)
    obtain ⟨hfirst, hsecond, -⟩ := hparameters p hp
    simp [hfirst, hsecond]
  have hacquired : '\n' ∉ (acquiresText f.acquires).toList := by
    cases ha : f.acquires with
    | none => simp [acquiresText]
    | some record =>
      rw [ha] at hacquires
      simpa [acquiresText] using hacquires
  simp only [Function.block, Text.freeOf_cons, Text.freeOf_append, Text.freeOf_map]
  refine ⟨⟨freeOf_docLines hdoc, ?_, fun line hl => ?_⟩, by simp [indent]⟩
  · simp [indent, hname, hparameter, hacquired]
  · simpa [indent] using hbody line hl

/-- An item of texts with one line each has lines with one line each. -/
theorem Item.freeOf_block {item : Item} (h : Text.FreeOf '\n' item.strings) : Text.FreeOf '\n' item.block := by
  cases item with
  | constant c => exact (Text.freeOf_cons ..).mpr ⟨Constant.not_mem_line h, Text.freeOf_nil _⟩
  | record r => exact Record.freeOf_block h
  | function f => exact Function.freeOf_block h

/-! ## Lines that open a declaration -/

/-- The words that open a declaration. -/
def keywords : List String := ["const ", "struct ", "public fun "]

/-- Whether a line opens a declaration: after one level of indentation comes a keyword. -/
def opensDeclaration (line : String) : Bool :=
  keywords.any fun keyword => (indent keyword).toList.isPrefixOf line.toList

/-- A line declares an item: it gives the keyword of the item, the name, and what follows a name there. -/
def Item.DeclaredBy (line : String) : Item → Prop
  | constant c => ∃ rest, line = indent ("const " ++ c.name ++ ": " ++ rest)
  | record r => ∃ rest, line = indent ("struct " ++ r.name ++ " " ++ rest)
  | function f => ∃ rest, line = indent ("public fun " ++ f.name ++ "(" ++ rest)

/-- The lines that open a declaration declare the items, one each and in their order. -/
def Declares (lines : List String) (items : List Item) : Prop :=
  List.Forall₂ (fun line (item : Item) => item.DeclaredBy line) (lines.filter opensDeclaration) items

theorem opensDeclaration_empty : opensDeclaration "" = false := by decide

namespace Declares

variable {l l' : List String} {items items' : List Item}

/-- Lines that open the declarations of some items, followed by lines that open those of others. -/
theorem append (h : Declares l items) (h' : Declares l' items') : Declares (l ++ l') (items ++ items') := by
  rw [Declares, List.filter_append]
  exact List.rel_append h h'

/-- Lines that open nothing declare nothing. -/
theorem nil (h : ∀ line ∈ l, opensDeclaration line = false) : Declares l [] := by
  have hnone : l.filter opensDeclaration = [] := List.filter_eq_nil_iff.mpr fun line hl => by simp [h line hl]
  rw [Declares, hnone]
  exact .nil

/-- An empty line opens no declaration. -/
theorem cons_empty_iff : Declares ("" :: l) items ↔ Declares l items := by
  simp [Declares, opensDeclaration_empty]

/-- A line between others that open nothing. -/
theorem single {line : String} {item : Item} (hl : ∀ x ∈ l, opensDeclaration x = false)
    (hline : opensDeclaration line = true ∧ item.DeclaredBy line) (hl' : ∀ x ∈ l', opensDeclaration x = false) :
    Declares (l ++ line :: l') [item] := by
  have hmiddle : Declares [line] [item] := by
    rw [Declares, List.filter_cons_of_pos hline.1]
    exact .cons hline.2 .nil
  exact (nil hl).append (hmiddle.append (nil hl'))

end Declares

/-- The comment above a declaration does not open it. -/
theorem opensDeclaration_docLines (doc : Option String) : ∀ line ∈ docLines doc, opensDeclaration line = false := by
  cases doc <;> simp [docLines, opensDeclaration, keywords, indent, List.isPrefixOf]

/-- A line of two levels of indentation opens nothing, whatever it says. -/
theorem opensDeclaration_deeper (line : String) : opensDeclaration (indent (indent line)) = false := by
  simp [opensDeclaration, keywords, indent, List.isPrefixOf]

theorem opensDeclaration_brace : opensDeclaration (indent "\x7d") = false := by decide

/-- The line of a constant opens its declaration. -/
theorem declaredBy_constant (c : Constant) :
    opensDeclaration c.line = true ∧ (Item.constant c).DeclaredBy c.line := by
  refine ⟨by simp [Constant.line, opensDeclaration, keywords, indent, List.isPrefixOf],
    c.type ++ " = " ++ c.value ++ ";" ++ trailing c.comment, ?_⟩
  simp [Constant.line, String.append_assoc]

theorem declaredBy_record (r : Record) (rest : String) :
    opensDeclaration (indent ("struct " ++ r.name ++ " " ++ rest)) = true ∧
      (Item.record r).DeclaredBy (indent ("struct " ++ r.name ++ " " ++ rest)) :=
  ⟨by simp [opensDeclaration, keywords, indent, List.isPrefixOf], rest, rfl⟩

theorem declaredBy_function (f : Function) (rest : String) :
    opensDeclaration (indent ("public fun " ++ f.name ++ "(" ++ rest)) = true ∧
      (Item.function f).DeclaredBy (indent ("public fun " ++ f.name ++ "(" ++ rest)) :=
  ⟨by simp [opensDeclaration, keywords, indent, List.isPrefixOf], rest, rfl⟩

/-- What follows the name of a record begins with a space, with abilities or without. -/
theorem exists_after_name (abilities : List String) : ∃ rest, abilityText abilities ++ " \x7b" = " " ++ rest := by
  unfold abilityText
  split
  · exact ⟨"\x7b", by simp⟩
  · refine ⟨"has " ++ String.intercalate ", " abilities ++ " \x7b", ?_⟩
    rw [← String.append_assoc, ← String.append_assoc]
    rfl

/-- Of the lines of an item, one opens a declaration, that of the item. -/
theorem declares_block (item : Item) : Declares item.block [item] := by
  have hbrace : ∀ line ∈ [indent "\x7d"], opensDeclaration line = false := by simp [opensDeclaration_brace]
  cases item with
  | constant c => exact Declares.single (l := []) (by simp) (declaredBy_constant c) (by simp)
  | record r =>
    obtain ⟨rest, hrest⟩ := exists_after_name r.abilities
    have hline : "struct " ++ r.name ++ abilityText r.abilities ++ " \x7b" = "struct " ++ r.name ++ " " ++ rest := by
      rw [String.append_assoc, hrest, ← String.append_assoc]
    have hfields : ∀ line ∈ r.fields.map Field.line ++ [indent "\x7d"], opensDeclaration line = false := by
      rw [List.forall_mem_append, List.forall_mem_map]
      exact ⟨fun f _ => opensDeclaration_deeper _, hbrace⟩
    rw [Item.block, Record.block, hline, List.append_assoc, List.cons_append]
    exact Declares.single (opensDeclaration_docLines r.doc) (declaredBy_record r rest) hfields
  | function f =>
    have hbody : ∀ line ∈ f.body.map (fun line => indent (indent line)) ++ [indent "\x7d"],
        opensDeclaration line = false := by
      rw [List.forall_mem_append, List.forall_mem_map]
      exact ⟨fun line _ => opensDeclaration_deeper line, hbrace⟩
    rw [Item.block, Function.block, List.append_assoc, List.cons_append, String.append_assoc, String.append_assoc,
      String.append_assoc]
    exact Declares.single (opensDeclaration_docLines f.doc) (declaredBy_function f _) hbody

/-- Every item has lines of its own. -/
theorem Item.block_ne_nil (item : Item) : item.block ≠ [] := by
  cases item <;> simp [block, Record.block, Function.block]

/-- No line of an item is empty. -/
theorem not_mem_block (item : Item) : "" ∉ item.block := by
  have hindent : ∀ line, "" ≠ indent line := by simp [indent]
  have hdoc : ∀ doc, "" ∉ docLines doc := by
    intro doc
    cases doc <;> simp [docLines, hindent]
  cases item <;>
    simp [Item.block, Constant.line, Record.block, Function.block, Field.line, hdoc, indent]

/-! ## Empty lines between the items -/

/-- The lines of the items, read with the empty line in front of what it sets apart: of each item but a constant that follows
another one. The flag says whether a constant stands in front; the last empty line ends the items. -/
def spaced : Bool → List Item → List String
  | _, [] => [""]
  | afterConstant, item :: items =>
    runEnd (!(afterConstant && item.isConstant)) ++ (item.block ++ spaced item.isConstant items)

/-- Where no constant stands in front, the empty line that comes first was written behind the item before. -/
theorem spaced_eq (afterConstant : Bool) (items : List Item) :
    spaced afterConstant items = runEnd (!afterConstant) ++ itemLines afterConstant items := by
  induction items generalizing afterConstant with
  | nil => cases afterConstant <;> rfl
  | cons item items ih =>
    cases item with
    | constant c => simp [spaced, itemLines, ih, runEnd, Item.isConstant, Item.block]
    | record r =>
      cases afterConstant <;> simp [spaced, itemLines, ih, runEnd, Item.isConstant, Item.block, Record.lines_eq]
    | function f =>
      cases afterConstant <;> simp [spaced, itemLines, ih, runEnd, Item.isConstant, Item.block, Function.lines_eq]

/-- What is not a constant has an empty line above it and one below. -/
theorem spaced_of_block {item : Item} (h : item.isConstant = false) (afterConstant : Bool) (items : List Item) :
    spaced afterConstant (item :: items) = "" :: (item.block ++ "" :: itemLines false items) := by
  simp [spaced, h, runEnd, spaced_eq false items]

/-- Two constants that follow each other have nothing between their lines. -/
theorem spaced_of_constants (c d : Constant) (afterConstant : Bool) (items : List Item) :
    spaced afterConstant (.constant c :: .constant d :: items) =
      runEnd (!afterConstant) ++ c.line :: d.line :: spaced true items := by
  simp [spaced, Item.isConstant, Item.block, runEnd]

/-- The empty line behind a run of constants opens no declaration. -/
theorem declares_runEnd (flag : Bool) : Declares (runEnd flag) [] :=
  Declares.nil (by cases flag <;> simp [runEnd, opensDeclaration_empty])

/-- The spaced lines of some items open one declaration for each of them, in their order. -/
theorem declares_spaced (afterConstant : Bool) (items : List Item) : Declares (spaced afterConstant items) items := by
  induction items generalizing afterConstant with
  | nil => exact declares_runEnd true
  | cons item items ih => exact (declares_runEnd _).append ((declares_block item).append (ih item.isConstant))

/-- The lines of the items and of the end of the module declare the items. -/
theorem declares_rest (flag : Bool) (items : List Item) : Declares (spaced flag items ++ ["\x7d", ""]) items := by
  have hend : Declares ["\x7d", ""] [] := Declares.nil (by decide)
  simpa using (declares_spaced flag items).append hend

/-- The lines of items begin with lines for the first of them, which declare these. -/
theorem exists_spaced_append (afterConstant : Bool) (before items : List Item) :
    ∃ above flag, spaced afterConstant (before ++ items) = above ++ spaced flag items ∧ Declares above before := by
  induction before generalizing afterConstant with
  | nil => exact ⟨[], afterConstant, rfl, Declares.nil (by simp)⟩
  | cons item before ih =>
    obtain ⟨above, flag, habove, hdeclares⟩ := ih item.isConstant
    refine ⟨runEnd (!(afterConstant && item.isConstant)) ++ (item.block ++ above), flag, ?_, ?_⟩
    · simp [spaced, habove]
    · exact (declares_runEnd _).append ((declares_block item).append hdeclares)

/-- The spaced lines of some items hold no line break, if the parts of the items do not. -/
theorem freeOf_spaced {items : List Item} (h : Text.FreeOf '\n' (items.flatMap Item.strings)) (afterConstant : Bool) :
    Text.FreeOf '\n' (spaced afterConstant items) := by
  have hrunEnd : ∀ flag, Text.FreeOf '\n' (runEnd flag) := by
    intro flag
    cases flag <;> simp [runEnd]
  induction items generalizing afterConstant with
  | nil => exact hrunEnd true
  | cons item items ih =>
    rw [List.flatMap_cons, Text.freeOf_append] at h
    simp only [spaced, Text.freeOf_append]
    exact ⟨hrunEnd _, Item.freeOf_block h.1, ih h.2 item.isConstant⟩

/-- The items leave no gap in front of a line that is not empty. -/
theorem noGap_spaced (afterConstant : Bool) (items : List Item) {line : String} {l : List String} (hline : line ≠ "")
    (h : Text.NoGap (line :: l)) : Text.NoGap (spaced afterConstant items ++ line :: l) := by
  induction items generalizing afterConstant with
  | nil => exact List.isChain_cons.mpr ⟨fun next hnext => Or.inr (Option.some.inj hnext ▸ hline), h⟩
  | cons item items ih =>
    obtain ⟨first, rest, hblock⟩ := List.exists_cons_of_ne_nil item.block_ne_nil
    have hfilled := hblock ▸ not_mem_block item
    rw [spaced, hblock, List.append_assoc, List.append_assoc]
    cases afterConstant && item.isConstant
    · exact (ih item.isConstant).spaced hfilled
    · exact Text.NoGap.append (l := first :: rest) hfilled (ih item.isConstant)

/-! ## The lines around the items -/

/-- The wiring block, read with the empty line in front of it. -/
def spacedWiring (wiring : List String) : List String :=
  if wiring.isEmpty then [] else "" :: indent "// Wiring" :: wiring.map fun line => indent ("//   " ++ line)

/-- The wiring has its empty line behind it; seen from the line before, it has one in front instead. -/
theorem wiringBlock_spaced (wiring : List String) : "" :: wiringBlock wiring = spacedWiring wiring ++ [""] := by
  unfold wiringBlock spacedWiring
  split <;> simp

end Move

namespace MoveModule

open Move

/-- The line that opens the module and those of the modules it uses. -/
def opening (m : MoveModule) : List String := m.openingLine :: m.uses.map fun path => indent ("use " ++ path ++ ";")

/-- The lines before the items, without the empty line that ends them. -/
def frontLines (m : MoveModule) : List String := ("// " ++ m.header) :: "" :: m.opening ++ spacedWiring m.wiring

/-- The lines of a module are those at its front, the spaced lines of its items, and the closing brace. -/
theorem lines_eq (m : MoveModule) : m.lines = m.frontLines ++ (spaced false m.items ++ ["\x7d"]) := by
  calc
    m.lines = (("// " ++ m.header) :: "" :: m.opening) ++
        (("" :: wiringBlock m.wiring) ++ (itemLines false m.items ++ ["\x7d"])) := by simp [lines, headLines, opening]
    _ = m.frontLines ++ (spaced false m.items ++ ["\x7d"]) := by
      rw [wiringBlock_spaced, spaced_eq]
      simp [frontLines, runEnd]

/-- The lines before the items open no declaration. -/
theorem declares_frontLines (m : MoveModule) : Declares m.frontLines [] := by
  have hopening : opensDeclaration m.openingLine = false := by
    unfold openingLine
    split <;> simp [opensDeclaration, keywords, indent, List.isPrefixOf, String.append_assoc]
  have huses : ∀ path, opensDeclaration (indent ("use " ++ path ++ ";")) = false := by
    simp [opensDeclaration, keywords, indent, List.isPrefixOf]
  have hwiring : ∀ line, opensDeclaration (indent ("//   " ++ line)) = false := by
    simp [opensDeclaration, keywords, indent, List.isPrefixOf]
  have hhead : opensDeclaration (indent "// Wiring") = false := by decide
  have hheader : opensDeclaration ("// " ++ m.header) = false := by
    simp [opensDeclaration, keywords, indent, List.isPrefixOf]
  refine Declares.nil ?_
  rw [frontLines, List.forall_mem_append]
  constructor
  · simp [opening, opensDeclaration_empty, hheader, hopening, huses]
  · unfold spacedWiring
    split <;> simp [opensDeclaration_empty, hhead, hwiring]

/-- The lines at the front leave no gap before what follows them. -/
theorem noGap_frontLines (m : MoveModule) {l : List String} (h : Text.NoGap ("" :: l)) :
    Text.NoGap (m.frontLines ++ "" :: l) := by
  have hheader : "" ∉ ["// " ++ m.header] := by simp
  have hopening : "" ∉ m.opening := by
    simp only [opening, openingLine, List.mem_cons, List.mem_map, indent, not_or]
    refine ⟨?_, by simp⟩
    split <;> simp
  have hwiring : Text.NoGap (spacedWiring m.wiring ++ "" :: l) := by
    unfold spacedWiring
    split
    · exact h
    · exact h.spaced (by simp [indent])
  rw [frontLines, List.append_assoc]
  exact Text.NoGap.append (l := ["// " ++ m.header]) hheader (hwiring.spaced hopening)

/-- A module of texts with one line each has lines with one line each. -/
theorem freeOf_lines {m : MoveModule} (h : Text.FreeOf '\n' m.strings) : Text.FreeOf '\n' m.lines := by
  simp only [strings, List.cons_append, Text.freeOf_cons, Text.freeOf_append] at h
  obtain ⟨hheader, hname, ⟨⟨haddress, huses⟩, hwiring⟩, hitems⟩ := h
  have hopening : '\n' ∉ m.openingLine.toList := by
    unfold openingLine
    cases ha : m.address with
    | none => simp [hname]
    | some address =>
      rw [ha] at haddress
      simpa [hname] using haddress
  have hpaths : Text.FreeOf '\n' (m.uses.map fun path => indent ("use " ++ path ++ ";")) :=
    Text.freeOf_map.mpr fun path hp => by simpa [indent] using huses path hp
  have hblock : Text.FreeOf '\n' (spacedWiring m.wiring) := by
    unfold spacedWiring
    split
    · exact Text.freeOf_nil _
    · simp only [Text.freeOf_cons, Text.freeOf_map]
      exact ⟨by simp, by simp [indent], fun line hl => by simpa [indent] using hwiring line hl⟩
  simp only [lines_eq, frontLines, opening, List.cons_append, Text.freeOf_cons, Text.freeOf_append]
  exact ⟨by simpa using hheader, by simp, hopening, ⟨hpaths, hblock⟩, freeOf_spaced hitems false, by simp⟩

/-- The layout of a module, line by line. -/
structure HasLayout (m : MoveModule) (lines : List String) : Prop where
  /-- The lines that open a declaration stand for the items, one each and in order, and give their names. -/
  declarations : Declares lines m.items
  /-- No two empty lines follow each other. -/
  noGap : ¬ ["", ""] <:+: lines
  /-- A record or a function, with the comment above it, has one empty line above it and one below. -/
  apart : ∀ before item after, m.items = before ++ item :: after → item.isConstant = false →
    ∃ above below, lines = above ++ "" :: (item.block ++ "" :: below) ∧
      above.getLast? ≠ some "" ∧ below.head? ≠ some "" ∧ Declares above before ∧ Declares below after
  /-- Two constants that follow each other have nothing between their lines. -/
  together : ∀ before c d after, m.items = before ++ .constant c :: .constant d :: after →
    ∃ above below, lines = above ++ c.line :: d.line :: below ∧ Declares above before ∧ Declares below after
  /-- The last lines are an empty one and a closing brace, which is ended. -/
  closed : ["", "\x7d", ""] <:+ lines

/-- The lines of the text of a module, cut between two of its items. -/
theorem lines_split (m : MoveModule) (h : Text.FreeOf '\n' m.strings) {before items : List Item}
    (hitems : m.items = before ++ items) :
    ∃ above flag, Text.lines m.text = above ++ (spaced flag items ++ ["\x7d", ""]) ∧ Declares above before := by
  obtain ⟨above, flag, habove, hdeclares⟩ := exists_spaced_append false before items
  refine ⟨m.frontLines ++ above, flag, ?_, m.declares_frontLines.append hdeclares⟩
  rw [text, Text.lines_join (freeOf_lines h), lines_eq, hitems, habove]
  simp

/-- No two empty lines of a module follow one another. -/
theorem noGap_lines (m : MoveModule) (h : Text.FreeOf '\n' m.strings) : Text.NoGap (Text.lines m.text) := by
  have hend : Text.NoGap ["\x7d", ""] := List.isChain_pair.mpr (Or.inl (by decide))
  rw [text, Text.lines_join (freeOf_lines h), lines_eq, spaced_eq, List.append_assoc, List.append_assoc]
  have hitems := noGap_spaced false m.items (by decide) hend
  rw [spaced_eq] at hitems
  exact m.noGap_frontLines hitems

/-- The text of a module whose texts have one line each has the layout, whatever items it has in whatever order. -/
theorem text_hasLayout (m : MoveModule) (h : Text.FreeOf '\n' m.strings) : m.HasLayout (Text.lines m.text) where
  declarations := by
    obtain ⟨above, flag, hlines, hdeclares⟩ := m.lines_split h (List.append_nil m.items).symm
    rw [hlines]
    simpa using hdeclares.append (declares_rest flag [])
  noGap := (m.noGap_lines h).not_adjacent
  apart := by
    intro before item after hitems hblock
    obtain ⟨above, flag, hlines, hdeclares⟩ := m.lines_split h hitems
    rw [spaced_of_block hblock, List.cons_append, List.append_assoc, List.cons_append] at hlines
    have hgap := m.noGap_lines h
    have hbelow : Text.NoGap ((above ++ "" :: item.block) ++ "" :: (itemLines false after ++ ["\x7d", ""])) := by
      rw [hlines] at hgap
      simpa using hgap
    refine ⟨above, _, hlines, (hlines ▸ hgap).around.1, hbelow.around.2, hdeclares, ?_⟩
    have hrest := declares_rest false after
    rw [spaced_eq] at hrest
    exact Declares.cons_empty_iff.mp hrest
  together := by
    intro before c d after hitems
    obtain ⟨above, flag, hlines, hdeclares⟩ := m.lines_split h hitems
    rw [spaced_of_constants] at hlines
    refine ⟨above ++ runEnd (!flag), spaced true after ++ ["\x7d", ""], by simp [hlines], ?_, ?_⟩
    · simpa using hdeclares.append (declares_runEnd (!flag))
    · exact declares_rest true after
  closed := by
    obtain ⟨above, flag, hlines, -⟩ := m.lines_split h (List.append_nil m.items).symm
    exact ⟨above, by rw [hlines]; rfl⟩

/-- A module whose comments, fields and bodies name the keywords, with two constants between a function and a record. -/
def tollBooth : MoveModule where
  header := "struct Toll"
  name := "toll"
  address := some "0x1"
  uses := ["std::signer"]
  wiring := ["const Pool.Loan -> Vault.Deposit (asset)"]
  items :=
    [ .function ⟨"pass", some "public fun pass", [("account", "&signer")], none, ["const toll = FEE;", ""]⟩,
      .constant ⟨"FEE", "u64", "30", some "0.3%"⟩, .constant ⟨"DAYS", "u64", "30", none⟩,
      .record ⟨"Booth", none, ["key"], [⟨"struct fee", "u64", some "0.3%"⟩]⟩ ]

/-- Four of its lines open a declaration, although more of them name a keyword. -/
theorem tollBooth_hasLayout :
    Text.FreeOf '\n' tollBooth.strings ∧ tollBooth.HasLayout (Text.lines tollBooth.text) ∧
      ((Text.lines tollBooth.text).filter opensDeclaration).length = 4 := by
  have hfree : Text.FreeOf '\n' tollBooth.strings := by
    unfold Text.FreeOf
    decide
  have hlayout := tollBooth.text_hasLayout hfree
  exact ⟨hfree, hlayout, hlayout.declarations.length_eq⟩

end MoveModule

end DefiComposer
