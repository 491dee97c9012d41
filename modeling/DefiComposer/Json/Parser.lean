import DefiComposer.Json.Basic

/-!
# Parser: JSON text read into values

Each reader takes a value from the front of a text and answers it with what follows. The readers of nested values take a
bound on the depth of the recursion; `parse?` gives one that no text exceeds, its own length.
-/

namespace DefiComposer.Json

/-- The four blanks of JSON. -/
def isSpace (c : Char) : Bool := c == ' ' || c == '\n' || c == '\t' || c == '\r'

/-- The text without its leading blanks. -/
def skipSpace (s : List Char) : List Char := s.dropWhile isSpace

/-- What follows `expected` at the start of a text. -/
def dropExpected : List Char → List Char → Option (List Char)
  | [], s => some s
  | _ :: _, [] => none
  | e :: expected, c :: s => if e = c then dropExpected expected s else none

/-- Whether a scan is a JSON number: digits without a superfluous zero in front, and digits after a point and after an
exponent mark. -/
def isNumber (scan : Decimal.Scan) : Bool :=
  (match scan.whole with
    | [] => false
    | [_] => true
    | c :: _ => c != '0') &&
  (match scan.fraction with
    | some ds => !ds.isEmpty
    | none => true) &&
  scan.exponentComplete

/-- The number that a scan stands for: an integer where it has neither point nor exponent, is no negative zero and fits in
64 bits, and else the decimal of its leading digits. -/
def Number.ofScan (negative : Bool) (scan : Decimal.Scan) : Number :=
  let magnitude := Decimal.ofDigits scan.whole
  let n : Int := if negative then -(magnitude : Int) else magnitude
  if scan.fraction.isNone && scan.exponent.isNone && fits64 n && !(negative && magnitude == 0) then .integer n
  else .decimal (scan.leading negative)

/-- A number at the start of a text. -/
def number? (s : List Char) : Option (Number × List Char) :=
  let (negative, digits) := match s with
    | '-' :: rest => (true, rest)
    | s => (false, s)
  let (scan, rest) := Decimal.Scan.scan digits
  if isNumber scan then some (Number.ofScan negative scan, rest) else none

/-- The value of a string. -/
def ofPieces (pieces : List Piece) : Json :=
  match textOf? pieces with
  | some cs => .string (String.ofList cs)
  | none => .garbled

/-- The name of a member, if it is a text. -/
def Name.ofPieces? (pieces : List Piece) : Option Name :=
  (textOf? pieces).map fun cs => ⟨String.ofList cs, pieces.all Piece.isPlain⟩

/-- The value of an object, each of whose names may be no text. -/
def ofMembers (members : List (Option Name × Json)) : Json :=
  match members.mapM fun member => member.1.map (·, member.2) with
  | some members => .object members
  | none => .garbled

mutual

/-- A value at the start of a text. -/
def value? : Nat → List Char → Option (Json × List Char)
  | 0, _ => none
  | fuel + 1, s =>
    match skipSpace s with
    | 'n' :: rest => (dropExpected ['u', 'l', 'l'] rest).map fun rest => (.null, rest)
    | 't' :: rest => (dropExpected ['r', 'u', 'e'] rest).map fun rest => (.bool true, rest)
    | 'f' :: rest => (dropExpected ['a', 'l', 's', 'e'] rest).map fun rest => (.bool false, rest)
    | '"' :: rest => (pieces? rest).map fun (pieces, rest) => (ofPieces pieces, rest)
    | '[' :: rest =>
      match skipSpace rest with
      | ']' :: rest => some (.array [], rest)
      | rest => (items? fuel rest).map fun (items, rest) => (.array items, rest)
    | '\x7b' :: rest =>
      match skipSpace rest with
      | '\x7d' :: rest => some (.object [], rest)
      | rest => (members? fuel rest).map fun (members, rest) => (ofMembers members, rest)
    | s => (number? s).map fun (n, rest) => (.number n, rest)

/-- The items of an array that is not empty, and its closing bracket. -/
def items? : Nat → List Char → Option (List Json × List Char)
  | 0, _ => none
  | fuel + 1, s =>
    match value? fuel s with
    | none => none
    | some (item, rest) =>
      match skipSpace rest with
      | ']' :: rest => some ([item], rest)
      | ',' :: rest => (items? fuel rest).map fun (items, rest) => (item :: items, rest)
      | _ => none

/-- The members of an object that is not empty, and its closing brace. -/
def members? : Nat → List Char → Option (List (Option Name × Json) × List Char)
  | 0, _ => none
  | fuel + 1, s =>
    match skipSpace s with
    | '"' :: rest =>
      match pieces? rest with
      | none => none
      | some (pieces, rest) =>
        match skipSpace rest with
        | ':' :: rest =>
          match value? fuel rest with
          | none => none
          | some (value, rest) =>
            match skipSpace rest with
            | '\x7d' :: rest => some ([(Name.ofPieces? pieces, value)], rest)
            | ',' :: rest =>
              (members? fuel rest).map fun (members, rest) => ((Name.ofPieces? pieces, value) :: members, rest)
            | _ => none
        | _ => none
    | _ => none

end

/-- The value that a whole text writes, blanks around it left out. -/
def parse? (text : String) : Option Json :=
  let s := text.toList
  match value? (s.length + 1) s with
  | some (j, rest) => if (skipSpace rest).isEmpty then some j else none
  | none => none

end DefiComposer.Json
