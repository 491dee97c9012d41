import DefiComposer.Decimal.Reading
import DefiComposer.Decimal.Writing

/-!
# Json: strings and values as they stand in a JSON text, and records read from them
-/

namespace DefiComposer

/-!
## Strings

Between its quotes a string is written in pieces: a character as it is, a short escape, or an escape of sixteen bits. A
character beyond sixteen bits is escaped as a pair of units; half of such a pair may be written alone, but then no text is
what the string says. `pieces?` reads the pieces, `textOf?` puts them together, and `quoted` writes a text with escapes
only where they are needed.
-/

namespace Json

/-- What is written for a character, or for half of one, inside a string. -/
inductive Piece where
  | plain (c : Char)
  | short (c : Char)
  | unit (bits : Nat)

/-- The value of a hexadecimal digit. -/
def hexValue? (c : Char) : Option Nat :=
  if '0' ≤ c ∧ c ≤ '9' then some (c.toNat - 48)
  else if 'a' ≤ c ∧ c ≤ 'f' then some (c.toNat - 87)
  else if 'A' ≤ c ∧ c ≤ 'F' then some (c.toNat - 55)
  else none

/-- The sixteen bits of four hexadecimal digits. -/
def unit? (a b c d : Char) : Option Nat := do
  return (((← hexValue? a) * 16 + (← hexValue? b)) * 16 + (← hexValue? c)) * 16 + (← hexValue? d)

/-- The character of a short escape. -/
def shortEscape? (c : Char) : Option Char :=
  if c = '"' then some '"'
  else if c = '\\' then some '\\'
  else if c = '/' then some '/'
  else if c = 'b' then some (Char.ofNat 8)
  else if c = 'f' then some (Char.ofNat 12)
  else if c = 'n' then some '\n'
  else if c = 'r' then some '\r'
  else if c = 't' then some '\t'
  else none

/-- The pieces of a string after its opening quote, and what follows the closing one. A control character must be
escaped. -/
def pieces? : List Char → Option (List Piece × List Char)
  | [] => none
  | '"' :: rest => some ([], rest)
  | '\\' :: 'u' :: a :: b :: c :: d :: rest =>
    match unit? a b c d with
    | none => none
    | some bits => (pieces? rest).map fun (pieces, after) => (.unit bits :: pieces, after)
  | '\\' :: c :: rest =>
    match shortEscape? c with
    | none => none
    | some e => (pieces? rest).map fun (pieces, after) => (.short e :: pieces, after)
  | c :: rest =>
    if c.toNat < 0x20 ∨ c = '\\' then none
    else (pieces? rest).map fun (pieces, after) => (.plain c :: pieces, after)

/-- Whether a unit is the first half of a pair. -/
def isHighUnit (bits : Nat) : Bool := 0xD800 ≤ bits && bits < 0xDC00

/-- Whether a unit is the second half of a pair. -/
def isLowUnit (bits : Nat) : Bool := 0xDC00 ≤ bits && bits < 0xE000

/-- The character of a pair of units. -/
def pairChar (high low : Nat) : Char := Char.ofNat (0x10000 + (high - 0xD800) * 0x400 + (low - 0xDC00))

/-- The text that pieces write, unless there is half of a pair among them. -/
def textOf? : List Piece → Option (List Char)
  | [] => some []
  | .plain c :: rest => (textOf? rest).map (c :: ·)
  | .short c :: rest => (textOf? rest).map (c :: ·)
  | .unit bits :: rest =>
    if isHighUnit bits then
      match rest with
      | .unit low :: rest => if isLowUnit low then (textOf? rest).map (pairChar bits low :: ·) else none
      | _ => none
    else if isLowUnit bits then none
    else (textOf? rest).map (Char.ofNat bits :: ·)

/-- Whether a piece is a character as it is. -/
def Piece.isPlain : Piece → Bool
  | .plain _ => true
  | .short _ => false
  | .unit _ => false

/-- What is written for one character of a text: an escape only where there must be one. -/
def escapedChar (c : Char) : List Char :=
  if c = '"' then ['\\', '"']
  else if c = '\\' then ['\\', '\\']
  else if c = '\n' then ['\\', 'n']
  else if c = '\r' then ['\\', 'r']
  else if c = '\t' then ['\\', 't']
  else if c.toNat = 8 then ['\\', 'b']
  else if c.toNat = 12 then ['\\', 'f']
  else if c.toNat < 0x20 then
    ['\\', 'u', '0', '0', Nat.digitChar (c.toNat / 16), Nat.digitChar (c.toNat % 16)]
  else [c]

/-- A text as a JSON string. -/
def quoted (s : String) : List Char := '"' :: s.toList.flatMap escapedChar ++ ['"']

/-- Whether a text is written without an escape. -/
def isPlainText (s : String) : Bool := s.toList.all fun c => escapedChar c == [c]

end Json

/-!
## Values

An object is the list of its members as written, in order and with repeated names. A number is an integer that fits in
64 bits, signed or not, or any other decimal; how a decimal turns into a double is `Number.toFloat?`. A value that holds
half of a surrogate pair where a text should stand is `garbled`: it is well formed and may be skipped, but not read.
-/

namespace Json

/-- A JSON number: an integer of at most 64 bits, or a decimal. -/
inductive Number where
  | integer (value : Int)
  | decimal (value : Decimal)
  deriving DecidableEq

/-- The name of a member, and whether it is written without an escape. -/
structure Name where
  text : String
  plain : Bool
  deriving DecidableEq

/-- A text as the name of a member, escaped only where there must be an escape. -/
def Name.ofString (text : String) : Name := ⟨text, isPlainText text⟩

instance : Coe String Name := ⟨Name.ofString⟩

end Json

/-- A JSON value. -/
inductive Json where
  | null
  | bool (value : Bool)
  | number (value : Json.Number)
  | string (value : String)
  | array (items : List Json)
  | object (members : List (Json.Name × Json))
  /-- A string with half of a surrogate pair, or an object with such a string for a name. -/
  | garbled
  deriving Inhabited

namespace Json

/-- Whether an integer has 64 bits, signed or not. -/
def fits64 (n : Int) : Bool := -(Nat.pow 2 63 : Int) ≤ n && n < (Nat.pow 2 64 : Int)

/-- Shortest digits, positional from a hundred-thousandth to ten quadrillions, `.0` after a whole number, a tie to the
even digit. -/
def numberLayout : Decimal.Layout := ⟨.even, some (-4, 16), ['.', '0']⟩

/-- The double that a number stands for, if it is not beyond the largest one: the nearest for an integer, and for a
decimal the one that its coefficient scales to. -/
def Number.toFloat? : Number → Option Float
  | .integer n => some (Decimal.toFloat ⟨n < 0, n.natAbs, 0⟩)
  | .decimal d => d.scaled?

/-- An integer as a JSON value. -/
def ofInt (n : Int) : Json := .number (.integer n)

/-- A natural number as a JSON value. -/
def ofNat (n : Nat) : Json := ofInt n

/-- A double as a JSON value: `null` where it is no finite number. -/
def ofFloat (x : Float) : Json :=
  match Decimal.ofFloat? numberLayout.tie x with
  | some d => .number (.decimal d)
  | none => .null

/-- An optional value, `null` where it is absent. -/
def ofOption {α : Type} (encode : α → Json) : Option α → Json
  | some a => encode a
  | none => .null

/-- A list of texts. -/
def ofStrings (texts : List String) : Json := .array (texts.map .string)

end Json

end DefiComposer

namespace DefiComposer.Json

/-!
## Records: fixed fields read from a JSON value

A record of named fields is written as an object, or as an array that lists the fields in their order. Members with other
names are skipped; a field that occurs twice is refused. A field that may be absent from an object may not be absent from
an array, unless the record has a default for it.
-/

/-- The fields of a record that were found, by name. -/
structure Record where
  fields : List (String × Json)
  /-- Whether the fields were listed in an array. -/
  listed : Bool

/-- The record with the given field names that a value writes. -/
def record? (names : List String) : Json → Option Record
  | .object members =>
    let known := (members.map fun member => (member.1.text, member.2)).filter fun member => names.contains member.1
    if (known.map (·.1)).Nodup then some ⟨known, false⟩ else none
  | .array items => if items.length ≤ names.length then some ⟨names.zip items, true⟩ else none
  | _ => none

namespace Record

/-- A field that must be there. -/
def required? {α : Type} (r : Record) (name : String) (decode : Json → Option α) : Option α :=
  (r.fields.lookup name).bind decode

/-- A field that may be absent or `null`. -/
def optional? {α : Type} (r : Record) (name : String) (decode : Json → Option α) : Option (Option α) :=
  match r.fields.lookup name with
  | some .null => some none
  | some j => (decode j).map some
  | none => if r.listed then none else some none

/-- A field with a default. -/
def withDefault? {α : Type} (r : Record) (name : String) (default : α) (decode : Json → Option α) : Option α :=
  match r.fields.lookup name with
  | some j => decode j
  | none => some default

end Record

/-- A string. -/
def string? : Json → Option String
  | .string s => some s
  | _ => none

/-- A truth value. -/
def bool? : Json → Option Bool
  | .bool b => some b
  | _ => none

/-- A number as a double. -/
def float? : Json → Option Float
  | .number n => n.toFloat?
  | _ => none

/-- A natural number of 32 bits. -/
def word? : Json → Option Nat
  | .number (.integer n) => if 0 ≤ n ∧ n < (Nat.pow 2 32 : Int) then some n.toNat else none
  | _ => none

/-- A value, or `null` for its absence. -/
def nullable? {α : Type} (decode : Json → Option α) : Json → Option (Option α)
  | .null => some none
  | j => (decode j).map some

/-- A list of values of one kind. -/
def list? {α : Type} (decode : Json → Option α) : Json → Option (List α)
  | .array items => items.mapM decode
  | _ => none

/-- The tag of an enumeration: a string, or an object with that one member and nothing in it. -/
def tag? : Json → Option String
  | .string s => some s
  | .object [(name, .null)] => some name.text
  | _ => none

/-- A natural number of 32 bits written as the name of a member: digits, none of them escaped, without a superfluous zero
in front. -/
def wordName? (name : Name) : Option Nat :=
  let s := name.text.toList
  if !name.plain ∨ (s.length > 1 ∧ s.head? = some '0') then none else (readNat? s).filter (· < Nat.pow 2 32)

end DefiComposer.Json
