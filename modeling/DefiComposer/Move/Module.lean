import DefiComposer.Primitive
import DefiComposer.Text.Basic

/-!
# Move modules: their names, their parts and their text
-/

namespace DefiComposer.Move

/-!
## Identifiers: names in a generated module

The name of a composition becomes the name of its module, the name of a parameter that of a constant; and each primitive
gets a suffix that sets its names apart from those of the earlier primitives of its kind.
-/

/-- What stands for a parameter without a usable value. -/
def unset : String := "UNSET"

/-- Whether a character may stand in a name: an ASCII letter or digit, or the underscore. -/
def isNameChar (c : Char) : Bool := c.isAlphanum || c == '_'

/-- The characters of a name that a text gives: a run of blanks becomes one underscore, letters become small, and what may
not stand in a name is dropped. `afterBlank` says whether the character before was a blank. -/
def nameChars : Bool → List Char → List Char
  | _, [] => []
  | afterBlank, c :: rest =>
    if Text.isBlank c then (if afterBlank then [] else ['_']) ++ nameChars true rest
    else (if isNameChar c then [c.toLower] else []) ++ nameChars false rest

/-- The name of the module of a composition: a name of its own where nothing is left, and a word in front of a digit. -/
def moduleIdent (name : String) : String :=
  match nameChars false (Text.trim name.toList) with
  | [] => "composition"
  | c :: rest =>
    if c.isDigit then String.ofList ("composition_".toList ++ c :: rest) else String.ofList (c :: rest)

/-- A character of a constant's name: an underscore comes before a capital that is not the first character. -/
def constantChar (c : Char) : List Char := if c.isUpper then ['_', c] else [c.toUpper]

/-- The name of the constant of a parameter. -/
def constantIdent (parameter : String) : String :=
  match parameter.toList with
  | [] => ""
  | c :: rest => String.ofList (c.toUpper :: rest.flatMap constantChar)

/-- The suffix of the `n`-th primitive of a kind: none for the first. -/
def suffix (n : Nat) : String := if n ≤ 1 then "" else "_" ++ n.repr

/-- The suffixes of primitives whose kinds follow those `before` them. -/
def suffixesAfter (before : List Kind) : List Kind → List String
  | [] => []
  | kind :: kinds => suffix (before.count kind + 1) :: suffixesAfter (before ++ [kind]) kinds

/-- The suffixes of primitives of the given kinds, in order. -/
def suffixes (kinds : List Kind) : List String := suffixesAfter [] kinds

end DefiComposer.Move

namespace DefiComposer

/-!
## Modules as data

A generated module is a list of items with a heading; each item knows its names, types and comments, and nothing here knows
about primitives. `MoveModule.text` is the only way it becomes text.
-/

namespace Move

/-- A constant, with a comment at the end of its line. -/
structure Constant where
  name : String
  type : String
  value : String
  comment : Option String
  deriving DecidableEq

/-- A field of a record, with a comment at the end of its line. -/
structure Field where
  name : String
  type : String
  comment : Option String
  deriving DecidableEq

/-- A record, with a comment line above it. -/
structure Record where
  name : String
  doc : Option String
  abilities : List String
  fields : List Field
  deriving DecidableEq

/-- A public function, with a comment line above it and the lines of its body. -/
structure Function where
  name : String
  doc : Option String
  parameters : List (String × String)
  acquires : Option String
  body : List String
  deriving DecidableEq

/-- An item of a module. -/
inductive Item where
  | constant (constant : Constant)
  | record (record : Record)
  | function (function : Function)
  deriving DecidableEq

end Move

/-- A module: the comment it begins with, its name and address, the modules it uses, a block of comment lines on the wiring,
and its items. -/
structure MoveModule where
  header : String
  name : String
  address : Option String
  uses : List String
  wiring : List String
  items : List Move.Item
  deriving DecidableEq

namespace MoveModule

/-- The constants in order. -/
def constants (m : MoveModule) : List Move.Constant :=
  m.items.filterMap fun
    | .constant c => some c
    | _ => none

/-- The records in order. -/
def records (m : MoveModule) : List Move.Record :=
  m.items.filterMap fun
    | .record r => some r
    | _ => none

/-- The functions in order. -/
def functions (m : MoveModule) : List Move.Function :=
  m.items.filterMap fun
    | .function f => some f
    | _ => none

end MoveModule

/-!
## The text of a module

The text is a list of lines. An empty line stands before the module's first item, after each record and each function, and
between the last constant of a run and what follows it.
-/

namespace Move

/-- One level of indentation. -/
def indent (line : String) : String := "    " ++ line

/-- A comment at the end of a line. -/
def trailing : Option String → String
  | some comment => " // " ++ comment
  | none => ""

/-- A comment line of its own. -/
def docLines : Option String → List String
  | some doc => [indent ("// " ++ doc)]
  | none => []

/-- The line of a constant. -/
def Constant.line (c : Constant) : String :=
  indent ("const " ++ c.name ++ ": " ++ c.type ++ " = " ++ c.value ++ ";" ++ trailing c.comment)

/-- The line of a field. -/
def Field.line (f : Field) : String :=
  indent (indent (f.name ++ ": " ++ f.type ++ "," ++ trailing f.comment))

/-- The abilities as they follow the name of a record. -/
def abilityText (abilities : List String) : String :=
  if abilities.isEmpty then "" else " has " ++ String.intercalate ", " abilities

/-- The lines of a record, with the empty line after it. -/
def Record.lines (r : Record) : List String :=
  docLines r.doc ++ indent ("struct " ++ r.name ++ abilityText r.abilities ++ " \x7b") :: r.fields.map Field.line ++
    [indent "\x7d", ""]

/-- The parameters of a function between its brackets. -/
def parameterText (parameters : List (String × String)) : String :=
  String.intercalate ", " (parameters.map fun p => p.1 ++ ": " ++ p.2)

/-- The record that a function acquires, as it follows the parameters. -/
def acquiresText : Option String → String
  | some record => " acquires " ++ record
  | none => ""

/-- The lines of a function, with the empty line after it. -/
def Function.lines (f : Function) : List String :=
  docLines f.doc ++
    indent ("public fun " ++ f.name ++ "(" ++ parameterText f.parameters ++ ")" ++ acquiresText f.acquires ++ " \x7b") ::
    f.body.map (fun line => indent (indent line)) ++ [indent "\x7d", ""]

/-- The empty line that ends a run of constants. -/
def runEnd (afterConstant : Bool) : List String := if afterConstant then [""] else []

/-- The lines of the items, after a constant or not. -/
def itemLines : Bool → List Item → List String
  | afterConstant, [] => runEnd afterConstant
  | _, .constant c :: items => c.line :: itemLines true items
  | afterConstant, .record r :: items => runEnd afterConstant ++ r.lines ++ itemLines false items
  | afterConstant, .function f :: items => runEnd afterConstant ++ f.lines ++ itemLines false items

/-- The block of comment lines on the wiring. -/
def wiringBlock (wiring : List String) : List String :=
  if wiring.isEmpty then []
  else indent "// Wiring" :: wiring.map (fun line => indent ("//   " ++ line)) ++ [""]

end Move

namespace MoveModule

/-- The line that opens the module. -/
def openingLine (m : MoveModule) : String :=
  match m.address with
  | some address => "module " ++ address ++ "::" ++ m.name ++ " \x7b"
  | none => "module " ++ m.name ++ " \x7b"

/-- The lines before the wiring block. -/
def headLines (m : MoveModule) : List String :=
  ["// " ++ m.header, "", m.openingLine] ++ m.uses.map (fun path => Move.indent ("use " ++ path ++ ";")) ++ [""]

/-- All lines of the module. -/
def lines (m : MoveModule) : List String :=
  m.headLines ++ Move.wiringBlock m.wiring ++ Move.itemLines false m.items ++ ["\x7d"]

/-- The text of the module: its lines, each ended. -/
def text (m : MoveModule) : String := String.join (m.lines.map (· ++ "\n"))

end MoveModule

end DefiComposer
