import DefiComposer.Decimal.Reading

/-!
# Writing: the shortest digits of a double, and their layout as text
-/

namespace DefiComposer.Decimal

/-!
## Shortest: the fewest decimal digits that read back as the same double

A finite double other than zero is `m * 2 ^ q`. The reals that round to it lie between the midpoints to its two
neighbours, ends included exactly when `m` is even. Among the powers of ten, from the largest down, the first whose
multiples meet that interval gives the fewest digits, and only the two multiples next to the double have to be looked at.
Where both lie in the interval the nearer one is taken, and an exact tie goes as `Tie` says.
-/

/-- Which of two equally near decimals is written: the larger one, or the one with an even last digit. -/
inductive Tie where
  | up
  | even
  deriving DecidableEq

/-- The positive number `mantissa * 2 ^ exponent`, with the gap to the next smaller double halved or not. -/
structure Binary where
  mantissa : Nat
  exponent : Int
  /-- Whether the next smaller double is at half the distance of the next larger one. -/
  narrowBelow : Bool

/-- The parts of the magnitude of a finite double. -/
def Binary.ofFloat (x : Float) : Binary :=
  let bits : Nat := x.toBits.toNat
  let field : Nat := bits / Nat.pow 2 52 % Nat.pow 2 11
  let fraction : Nat := bits % Nat.pow 2 52
  if field = 0 then ⟨fraction, -1074, false⟩
  else ⟨fraction + Nat.pow 2 52, (field : Int) - 1075, fraction = 0 && field > 1⟩

/-- Multiples of a power of ten against a binary number, over a common denominator: `d * 10 ^ k` stands to
`n * 2 ^ (exponent - 2)` as `d * ten` to `n * two`. -/
structure Scale where
  ten : Nat
  two : Nat

/-- The common scale of `10 ^ k` and a quarter of the unit of `b`. -/
def Binary.scale (b : Binary) (k : Int) : Scale :=
  let p := b.exponent - 2
  ⟨Nat.pow 10 k.toNat * Nat.pow 2 (-p).toNat, Nat.pow 2 p.toNat * Nat.pow 10 (-k).toNat⟩

/-- Whether `d * 10 ^ k` rounds to `b`. -/
def Binary.admits (b : Binary) (k : Int) (d : Nat) : Bool :=
  let s := b.scale k
  let low := (4 * b.mantissa - if b.narrowBelow then 1 else 2) * s.two
  let high := (4 * b.mantissa + 2) * s.two
  if b.mantissa % 2 = 0 then low ≤ d * s.ten && d * s.ten ≤ high
  else low < d * s.ten && d * s.ten < high

/-- The largest `d` with `d * 10 ^ k` not above `b`. -/
def Binary.floor (b : Binary) (k : Int) : Nat :=
  4 * b.mantissa * (b.scale k).two / (b.scale k).ten

/-- The multiple of `10 ^ k` that writes `b`, if one does: of the two next to `b` the nearer among those that round
to it. -/
def Binary.onGrid? (tie : Tie) (b : Binary) (k : Int) : Option Nat :=
  let s := b.scale k
  let d := b.floor k
  match b.admits k d, b.admits k (d + 1) with
  | false, false => none
  | true, false => some d
  | false, true => some (d + 1)
  | true, true =>
    match compare (2 * (4 * b.mantissa * s.two)) ((2 * d + 1) * s.ten) with
    | .lt => some d
    | .gt => some (d + 1)
    | .eq => if tie = .even && d % 2 = 0 then some d else some (d + 1)

/-- The first power of ten, from `k` down, that has a multiple writing `b`, with that multiple. -/
def Binary.search (tie : Tie) (b : Binary) : Nat → Int → Nat × Int
  | 0, k => (b.floor k, k)
  | steps + 1, k =>
    match b.onGrid? tie k with
    | some d => (d, k)
    | none => b.search tie steps (k - 1)

/-- A power of ten that is not below `b`. -/
def Binary.start (b : Binary) : Int :=
  ((b.mantissa.log2 + 1 + b.exponent) * 30103).fdiv 100000 + 1

/-- The sign of a double, zeros and all others alike. -/
def signOf (x : Float) : Bool := x.toBits.toNat / Nat.pow 2 63 = 1

/-- The shortest decimal that reads back as `x`, or nothing if `x` is no number or infinite. -/
def ofFloat? (tie : Tie) (x : Float) : Option Decimal :=
  if x.isFinite then
    let b := Binary.ofFloat x
    if b.mantissa = 0 then some ⟨signOf x, 0, 0⟩
    else
      let (coefficient, exponent) := b.search tie 20 b.start
      some ⟨signOf x, coefficient, exponent⟩
  else none

end DefiComposer.Decimal

namespace DefiComposer

/-!
## Layout: the text of a number

A `Layout` holds the choices of one number format. `plain` writes positional digits whatever the size of the number;
`Float.plainText` is the text of a double in it, with names for what is no finite number.
-/

namespace Decimal

/-- The choices of a number format. -/
structure Layout where
  /-- Which of two equally near shortest decimals is written. -/
  tie : Tie
  /-- The positions of the point that are written without an exponent; all of them where none is given. -/
  positional : Option (Int × Int)
  /-- What follows the digits of a whole number that is written without an exponent. -/
  wholeMark : List Char

/-- Digits with the point after the first `point` of them, filled up with zeros. -/
def positionalText (wholeMark : List Char) (ds : List Char) (point : Int) : List Char :=
  if point ≤ 0 then ['0', '.'] ++ List.replicate (-point).toNat '0' ++ ds
  else if ds.length ≤ point.toNat then ds ++ List.replicate (point.toNat - ds.length) '0' ++ wholeMark
  else ds.take point.toNat ++ '.' :: ds.drop point.toNat

/-- One digit before the point, and the power of ten with its sign. -/
def exponentText (ds : List Char) (point : Int) : List Char :=
  let mantissa := match ds with
    | [] => []
    | [d] => [d]
    | d :: rest => d :: '.' :: rest
  let power := point - 1
  mantissa ++ 'e' :: (if power < 0 then '-' else '+') :: digits power.natAbs

/-- The text of a decimal without its sign. -/
def Layout.magnitude (layout : Layout) (d : Decimal) : List Char :=
  if d.coefficient = 0 then '0' :: layout.wholeMark
  else
    let ds := digits d.coefficient
    match layout.positional with
    | none => positionalText layout.wholeMark ds d.point
    | some (least, greatest) =>
      if least ≤ d.point && d.point ≤ greatest then positionalText layout.wholeMark ds d.point
      else exponentText ds d.point

/-- The text of a decimal. -/
def Layout.text (layout : Layout) (d : Decimal) : List Char :=
  if d.negative then '-' :: layout.magnitude d else layout.magnitude d

/-- Shortest digits in positional form, nothing after a whole number, a tie upwards. -/
def plain : Layout := ⟨.up, none, []⟩

end Decimal

/-- The text of a double in plain layout. -/
def plainText (x : Float) : String :=
  match Decimal.ofFloat? Decimal.plain.tie x with
  | some d => String.ofList (Decimal.plain.text d)
  | none => if x.isNaN then "NaN" else if x > 0 then "inf" else "-inf"

end DefiComposer
