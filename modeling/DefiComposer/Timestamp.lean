import DefiComposer.Text.Basic
import DefiComposer.Decimal.Reading

/-!
# Timestamp: a moment of civil time in UTC

A moment is a date of the Gregorian calendar with a time of day in UTC, to the nanosecond; a minute may have a sixty-first
second. It is written as RFC 3339 asks, with 0, 3, 6 or 9 digits of the second's fraction, the fewest that lose nothing.
Reading is lenient: numbers may be short and stand after blanks, a blank may stand for the `T`, and an offset from UTC is
taken off.
-/

namespace DefiComposer

/-- Whether a year has a 29th of February. -/
def isLeapYear (year : Int) : Bool := year % 4 == 0 && (year % 100 != 0 || year % 400 == 0)

/-- How many days a month has. -/
def daysInMonth (year : Int) (month : Nat) : Nat :=
  if month = 2 then (if isLeapYear year then 29 else 28)
  else if month = 4 ∨ month = 6 ∨ month = 9 ∨ month = 11 then 30
  else 31

/-- A day of the calendar. -/
structure Day where
  year : Int
  month : Nat
  day : Nat
  deriving DecidableEq

namespace Day

/-- Whether the calendar has the day. -/
def isValid (d : Day) : Bool :=
  -262143 ≤ d.year && d.year ≤ 262142 && 1 ≤ d.month && d.month ≤ 12 && 1 ≤ d.day &&
    d.day ≤ daysInMonth d.year d.month

/-- The day after. -/
def next (d : Day) : Day :=
  if d.day < daysInMonth d.year d.month then { d with day := d.day + 1 }
  else if d.month < 12 then ⟨d.year, d.month + 1, 1⟩
  else ⟨d.year + 1, 1, 1⟩

/-- The day before. -/
def previous (d : Day) : Day :=
  if 1 < d.day then { d with day := d.day - 1 }
  else if 1 < d.month then ⟨d.year, d.month - 1, daysInMonth d.year (d.month - 1)⟩
  else ⟨d.year - 1, 12, 31⟩

end Day

/-- A time of day. -/
structure Clock where
  hour : Nat
  minute : Nat
  second : Nat
  nanosecond : Nat
  deriving DecidableEq

/-- Whether a day has the time; a sixty-first second counts. -/
def Clock.isValid (c : Clock) : Bool :=
  c.hour < 24 && c.minute < 60 && c.second ≤ 60 && c.nanosecond < 1000000000

/-- A moment in UTC. -/
structure Timestamp where
  day : Day
  clock : Clock
  valid_day : day.isValid = true := by decide
  valid_clock : clock.isValid = true := by decide
  deriving DecidableEq

namespace Timestamp

/-- The first moment of 1970. -/
def epoch : Timestamp := { day := ⟨1970, 1, 1⟩, clock := ⟨0, 0, 0, 0⟩ }

instance : Inhabited Timestamp := ⟨epoch⟩

/-- A moment, if the calendar and the clock have it. -/
def make? (day : Day) (clock : Clock) : Option Timestamp :=
  if h : day.isValid = true ∧ clock.isValid = true then some ⟨day, clock, h.1, h.2⟩ else none

/-- Digits of a number, filled up with zeros in front to a width. -/
def padded (width n : Nat) : List Char :=
  let ds := Decimal.digits n
  List.replicate (width - ds.length) '0' ++ ds

/-- A year: four digits, or a sign and at least four where four alone do not do. -/
def yearText (year : Int) : List Char :=
  if 0 ≤ year ∧ year ≤ 9999 then padded 4 year.natAbs
  else (if year < 0 then '-' else '+') :: padded 4 year.natAbs

/-- The fraction of a second, in the fewest of 0, 3, 6 and 9 digits. -/
def fractionText (nanosecond : Nat) : List Char :=
  if nanosecond = 0 then []
  else if nanosecond % 1000000 = 0 then '.' :: padded 3 (nanosecond / 1000000)
  else if nanosecond % 1000 = 0 then '.' :: padded 6 (nanosecond / 1000)
  else '.' :: padded 9 nanosecond

/-- The written form. -/
def text (t : Timestamp) : String :=
  String.ofList <|
    yearText t.day.year ++ '-' :: padded 2 t.day.month ++ '-' :: padded 2 t.day.day ++
      'T' :: padded 2 t.clock.hour ++ ':' :: padded 2 t.clock.minute ++ ':' :: padded 2 t.clock.second ++
      fractionText t.clock.nanosecond ++ ['Z']

/-- A number of at least one and at most `width` digits, with what follows it. -/
def number? (width : Nat) (s : List Char) : Option (Nat × List Char) :=
  let ds := (s.take width).takeWhile Decimal.isDigit
  if ds.isEmpty then none else some (Decimal.ofDigits ds, s.drop ds.length)

/-- A number after blanks. -/
def field? (width : Nat) (s : List Char) : Option (Nat × List Char) := number? width (Text.trimStart s)

/-- A year after blanks: up to four digits, or a sign and any number of them. -/
def year? (s : List Char) : Option (Int × List Char) :=
  match Text.trimStart s with
  | '-' :: rest => (number? rest.length rest).map fun (n, rest) => (-(n : Int), rest)
  | '+' :: rest => (number? rest.length rest).map fun (n, rest) => ((n : Int), rest)
  | rest => (number? 4 rest).map fun (n, rest) => ((n : Int), rest)

/-- What follows a mark that may stand after blanks. -/
def mark? (mark : Char) (s : List Char) : Option (List Char) :=
  match Text.trimStart s with
  | c :: rest => if c = mark then some rest else none
  | [] => none

/-- The nanoseconds of a fraction: nine digits count, further ones are dropped. -/
def fraction? : List Char → Option (Nat × List Char)
  | '.' :: rest =>
    let ds := rest.takeWhile Decimal.isDigit
    if ds.isEmpty then none
    else
      let counted := ds.take 9
      some (Decimal.ofDigits counted * Nat.pow 10 (9 - counted.length), rest.dropWhile Decimal.isDigit)
  | s => some (0, s)

/-- The minutes by which an offset is ahead of UTC, and what follows it: a `Z` or `UTC`, or a sign, two digits of hours, any
colons and blanks, and two digits of minutes. -/
def offset? (s : List Char) : Option (Int × List Char) :=
  let s := Text.trimStart s
  if (s.take 3).map Char.toLower = ['u', 't', 'c'] then some (0, s.drop 3)
  else
    match s with
    | 'Z' :: rest => some (0, rest)
    | 'z' :: rest => some (0, rest)
    | sign :: h :: h' :: rest =>
      if (sign = '+' ∨ sign = '-' ∨ sign = '−') ∧ Decimal.isDigit h ∧ Decimal.isDigit h' then
        match rest.dropWhile fun c => c == ':' || Text.isBlank c with
        | m :: m' :: rest =>
          if '0' ≤ m ∧ m ≤ '5' ∧ Decimal.isDigit m' then
            let minutes : Int := Decimal.ofDigits [h, h'] * 60 + Decimal.ofDigits [m, m']
            if minutes < 1440 then some (if sign = '+' then minutes else -minutes, rest) else none
          else none
        | _ => none
      else none
    | _ => none

/-- The moment that a local time ahead of UTC by some minutes, less than a day either way, names. -/
def ofLocal? (day : Day) (clock : Clock) (offset : Int) : Option Timestamp :=
  let minutes : Int := clock.hour * 60 + clock.minute - offset
  let day := if minutes < 0 then day.previous else if 1440 ≤ minutes then day.next else day
  let minutes := (minutes % 1440).toNat
  make? day { clock with hour := minutes / 60, minute := minutes % 60 }

/-- The moment that a text writes. -/
def parse? (text : String) : Option Timestamp := do
  let (year, s) ← year? text.toList
  let (month, s) ← field? 2 (← mark? '-' s)
  let (day, s) ← field? 2 (← mark? '-' s)
  let s ← match s with
    | c :: rest => if c = 'T' ∨ c = 't' ∨ c = ' ' then some rest else none
    | [] => none
  let (hour, s) ← field? 2 s
  let (minute, s) ← field? 2 (← mark? ':' s)
  let (second, s) ← field? 2 (← mark? ':' s)
  let (nanosecond, s) ← fraction? s
  let (offset, s) ← offset? s
  let date : Day := ⟨year, month, day⟩
  let clock : Clock := ⟨hour, minute, second, nanosecond⟩
  if date.isValid && clock.isValid && (Text.trimStart s).isEmpty then ofLocal? date clock offset else none

end Timestamp

end DefiComposer
