import DefiComposer.Json.Basic

/-!
# Printer: JSON text

`compact` writes a value without blanks, `pretty` with one member or item to a line and two blanks of indentation a
level. A string is escaped only where JSON demands it; a garbled value has no text and is written as `null`. `canonical`
is the value whose compact text stands for a value in messages: members sorted by name, the last of several members of one
name kept, and each number the double it reads as.
-/

namespace DefiComposer.Json

/-- The text of an integer. -/
def integerText (n : Int) : List Char :=
  if n < 0 then '-' :: Decimal.digits n.natAbs else Decimal.digits n.natAbs

/-- The text of a number. -/
def Number.text : Number → List Char
  | .integer n => integerText n
  | .decimal d => numberLayout.text d

mutual

/-- The text of a value without blanks. -/
def compactText : Json → List Char
  | .null => ['n', 'u', 'l', 'l']
  | .garbled => ['n', 'u', 'l', 'l']
  | .bool true => ['t', 'r', 'u', 'e']
  | .bool false => ['f', 'a', 'l', 's', 'e']
  | .number n => n.text
  | .string s => quoted s
  | .array [] => ['[', ']']
  | .array (item :: items) => '[' :: compactText item ++ compactItems items
  | .object [] => ['\x7b', '\x7d']
  | .object ((name, value) :: members) =>
    '\x7b' :: quoted name.text ++ ':' :: compactText value ++ compactMembers members

/-- The items of an array after its first one, and the closing bracket. -/
def compactItems : List Json → List Char
  | [] => [']']
  | item :: items => ',' :: compactText item ++ compactItems items

/-- The members of an object after its first one, and the closing brace. -/
def compactMembers : List (Name × Json) → List Char
  | [] => ['\x7d']
  | (name, value) :: members => ',' :: quoted name.text ++ ':' :: compactText value ++ compactMembers members

end

/-- The text of a value without blanks. -/
def compact (j : Json) : String := String.ofList (compactText j)

/-- A new line at a level of indentation. -/
def newLine (level : Nat) : List Char := '\n' :: List.replicate (2 * level) ' '

mutual

/-- The text of a value inside `level` brackets, with one item to a line. -/
def prettyText (level : Nat) : Json → List Char
  | .array (item :: items) =>
    '[' :: newLine (level + 1) ++ prettyText (level + 1) item ++ prettyItems level items
  | .object ((name, value) :: members) =>
    '\x7b' :: newLine (level + 1) ++ quoted name.text ++ ':' :: ' ' :: prettyText (level + 1) value ++
      prettyMembers level members
  | .array [] => ['[', ']']
  | .object [] => ['\x7b', '\x7d']
  | .null => compactText .null
  | .garbled => compactText .garbled
  | .bool b => compactText (.bool b)
  | .number n => compactText (.number n)
  | .string s => compactText (.string s)

/-- The items of an array after its first one, and the closing bracket. -/
def prettyItems (level : Nat) : List Json → List Char
  | [] => newLine level ++ [']']
  | item :: items => ',' :: newLine (level + 1) ++ prettyText (level + 1) item ++ prettyItems level items

/-- The members of an object after its first one, and the closing brace. -/
def prettyMembers (level : Nat) : List (Name × Json) → List Char
  | [] => newLine level ++ ['\x7d']
  | (name, value) :: members =>
    ',' :: newLine (level + 1) ++ quoted name.text ++ ':' :: ' ' :: prettyText (level + 1) value ++
      prettyMembers level members

end

/-- The text of a value with one member or item to a line. -/
def pretty (j : Json) : String := String.ofList (prettyText 0 j)

/-- Puts a member into members sorted by name, in the place of one of the same name. -/
def insertSorted (name : Name) (value : Json) : List (Name × Json) → List (Name × Json)
  | [] => [(name, value)]
  | (other, kept) :: rest =>
    if name.text = other.text then (name, value) :: rest
    else if name.text < other.text then (name, value) :: (other, kept) :: rest
    else (other, kept) :: insertSorted name value rest

mutual

/-- The value with its members sorted by name, the last member of a name kept, and each number the double it reads as. -/
def canonical : Json → Json
  | .array items => .array (canonicalItems items)
  | .object members => .object (canonicalMembers members [])
  | .number (.decimal d) => ofOption ofFloat d.scaled?
  | .number (.integer n) => .number (.integer n)
  | .null => .null
  | .garbled => .garbled
  | .bool b => .bool b
  | .string s => .string s

/-- Each item in its canonical form. -/
def canonicalItems : List Json → List Json
  | [] => []
  | item :: items => canonical item :: canonicalItems items

/-- The members, each in its canonical form, put into those already sorted. -/
def canonicalMembers : List (Name × Json) → List (Name × Json) → List (Name × Json)
  | [], sorted => sorted
  | (name, value) :: members, sorted => canonicalMembers members (insertSorted name (canonical value) sorted)

end

end DefiComposer.Json
