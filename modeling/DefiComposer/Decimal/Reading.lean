/-!
# Decimals: numbers written with decimal digits, how they are read and what doubles they give
-/

namespace DefiComposer

/-!
## Decimals and their doubles

A decimal is a sign, a coefficient and a power of ten. `toFloat` is the double nearest to it, ties to the even one. A
decimal far outside the range of doubles is settled by its number of digits, so that no huge power of ten is formed.
-/

/-- The number `± coefficient * 10 ^ exponent`. -/
structure Decimal where
  negative : Bool
  coefficient : Nat
  exponent : Int
  deriving DecidableEq

namespace Decimal

/-- The digits of a number, most significant first. -/
def digits (n : Nat) : List Char := Nat.toDigits 10 n

/-- Whether a character is one of the ten ASCII digits. -/
def isDigit (c : Char) : Bool := '0' ≤ c && c ≤ '9'

/-- The number that a list of ASCII digits writes. -/
def ofDigits (ds : List Char) : Nat := ds.foldl (fun n c => 10 * n + (c.toNat - 48)) 0

/-- How many places the point lies to the right of the first digit's left edge: the number is below `10 ^ point`. -/
def point (d : Decimal) : Int := (digits d.coefficient).length + d.exponent

/-- The nearest double to a decimal without its sign. -/
def magnitude (d : Decimal) : Float :=
  if d.coefficient = 0 then 0
  else if d.point > 310 then 1 / 0
  else if d.point < -330 then 0
  else Float.ofScientific d.coefficient (d.exponent < 0) d.exponent.natAbs

/-- The nearest double. -/
def toFloat (d : Decimal) : Float := if d.negative then -d.magnitude else d.magnitude

end Decimal

/-!
## Numbers in text

`Scan.scan` takes from the front of a text what looks like an unsigned decimal, and two formats say which scans they
accept: `readFloat?` here, for a number in free text, and the reader of JSON. `readIndex?` reads a position in a list.
-/

namespace Decimal

/-- The parts of an unsigned decimal as it stands in a text. The fraction is what follows a point, the exponent what
follows an `e`, with its sign. -/
structure Scan where
  whole : List Char
  fraction : Option (List Char)
  exponent : Option (Bool × List Char)

/-- The leading digits of a text, and what follows them. -/
def spanDigits (s : List Char) : List Char × List Char := (s.takeWhile isDigit, s.dropWhile isDigit)

/-- The fraction at the start of a text, and what follows it. -/
def scanFraction : List Char → Option (List Char) × List Char
  | '.' :: rest => (some (spanDigits rest).1, (spanDigits rest).2)
  | s => (none, s)

/-- The sign at the start of a text, negative or not, and what follows it. -/
def scanSign : List Char → Bool × List Char
  | '-' :: rest => (true, rest)
  | '+' :: rest => (false, rest)
  | s => (false, s)

/-- The exponent at the start of a text, and what follows it. -/
def scanExponent : List Char → Option (Bool × List Char) × List Char
  | c :: rest =>
    if c = 'e' ∨ c = 'E' then
      let (negative, rest) := scanSign rest
      (some (negative, (spanDigits rest).1), (spanDigits rest).2)
    else (none, c :: rest)
  | [] => (none, [])

/-- The unsigned decimal at the start of a text, and what follows it. -/
def Scan.scan (s : List Char) : Scan × List Char :=
  let (whole, s) := spanDigits s
  let (fraction, s) := scanFraction s
  let (exponent, s) := scanExponent s
  (⟨whole, fraction, exponent⟩, s)

/-- The power of ten that the exponent part gives. -/
def Scan.power (scan : Scan) : Int :=
  match scan.exponent with
  | none => 0
  | some (true, ds) => -(ofDigits ds : Int)
  | some (false, ds) => ofDigits ds

/-- Whether an exponent part that was begun has digits. -/
def Scan.exponentComplete (scan : Scan) : Bool :=
  match scan.exponent with
  | none => true
  | some (_, ds) => !ds.isEmpty

/-- The decimal that the parts write, with the given sign. -/
def Scan.toDecimal (negative : Bool) (scan : Scan) : Decimal :=
  let fraction := scan.fraction.getD []
  ⟨negative, ofDigits (scan.whole ++ fraction), scan.power - fraction.length⟩

end Decimal

/-- The number that an unsigned text names: a word for infinity or for no number in any case, or a decimal with at least
one digit before or after its point. -/
def readMagnitude? (negative : Bool) (s : List Char) : Option Float :=
  let word := String.ofList (s.map Char.toLower)
  if word == "inf" || word == "infinity" then some (if negative then -(1 / 0) else 1 / 0)
  else if word == "nan" then some (0 / 0)
  else
    let (scan, rest) := Decimal.Scan.scan s
    if rest.isEmpty && !(scan.whole ++ scan.fraction.getD []).isEmpty && scan.exponentComplete then
      some (scan.toDecimal negative).toFloat
    else none

/-- The double nearest to the number that a text writes, with an optional sign and no blanks. -/
def readFloat? (s : List Char) : Option Float :=
  let (negative, rest) := Decimal.scanSign s
  readMagnitude? negative rest

/-- The number that a non-empty list of ASCII digits writes. -/
def readNat? (s : List Char) : Option Nat :=
  if s.isEmpty || !s.all Decimal.isDigit then none else some (Decimal.ofDigits s)

/-- A position in a list: digits, after an optional plus sign, of a number that fits in 64 bits. -/
def readIndex? (s : List Char) : Option Nat :=
  let ds := match s with
    | '+' :: rest => rest
    | s => s
  (readNat? ds).filter (· < Nat.pow 2 64)

end DefiComposer

namespace DefiComposer.Decimal

/-!
## Scaling: a decimal of one word, scaled by a power of ten

`Scan.leading` keeps the leading digits of a decimal, as many as fit in 64 bits. `scaled?` takes the double of such a
coefficient and multiplies or divides it by a power of ten. Every step rounds, so the outcome may be a neighbour of the
nearest double, which is `toFloat`.
-/

/-- Appends digits to a number for as long as it fits in 64 bits; the rest are the digits from the first that would not
fit. -/
def appendWhileFits (n : Nat) : List Char → Nat × List Char
  | [] => (n, [])
  | c :: rest =>
    if 10 * n + (c.toNat - 48) < Nat.pow 2 64 then appendWhileFits (10 * n + (c.toNat - 48)) rest else (n, c :: rest)

/-- What fits is below two to the power of 64. -/
theorem appendWhileFits_lt {n : Nat} (h : n < Nat.pow 2 64) (ds : List Char) :
    (appendWhileFits n ds).1 < Nat.pow 2 64 := by
  induction ds generalizing n with
  | nil => exact h
  | cons c ds ih =>
    rw [appendWhileFits]
    split
    · next hc => exact ih hc
    · exact h

/-- The decimal of the leading digits. Each whole digit left out raises the exponent by one, and each digit kept of the
fraction lowers it by one; a digit of the fraction may still fit where a whole digit did not. -/
def Scan.leading (negative : Bool) (scan : Scan) : Decimal :=
  let fraction := scan.fraction.getD []
  let (whole, dropped) := appendWhileFits 0 scan.whole
  let (coefficient, ignored) := appendWhileFits whole fraction
  ⟨negative, coefficient, scan.power + dropped.length - fraction.length + ignored.length⟩

/-- The coefficient of the leading digits fits in 64 bits. -/
theorem Scan.coefficient_leading_lt (negative : Bool) (scan : Scan) :
    (scan.leading negative).coefficient < Nat.pow 2 64 :=
  appendWhileFits_lt (appendWhileFits_lt (by decide) _) _

/-- The double nearest to a power of ten. -/
def powerOfTen (n : Nat) : Float := Float.ofScientific 1 false n

/-- A double divided by `10 ^ places`, by the largest power of ten among the doubles at a time. -/
def shrink (x : Float) (places : Nat) : Float :=
  if places ≤ 308 then x / powerOfTen places
  else if x == 0 then x
  else shrink (x / powerOfTen 308) (places - 308)
termination_by places

/-- The double of the coefficient, scaled by the power of ten, if it is not beyond the largest double. -/
def scaledMagnitude? (d : Decimal) : Option Float :=
  let x := Float.ofScientific d.coefficient false 0
  if d.coefficient = 0 then some 0
  else if d.exponent < 0 then some (shrink x d.exponent.natAbs)
  else if d.exponent > 308 then none
  else
    let scaled := x * powerOfTen d.exponent.natAbs
    if scaled.isFinite then some scaled else none

/-- The double that a decimal of one word scales to, with its sign. -/
def scaled? (d : Decimal) : Option Float := d.scaledMagnitude?.map fun x => if d.negative then -x else x

end DefiComposer.Decimal
