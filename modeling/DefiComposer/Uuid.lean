import DefiComposer.Json.Parser

/-!
# Uuid: the identity of a composition

An identity is 32 hexadecimal digits. It is written in small letters with hyphens after 8, 12, 16 and 20 of them, and read
with or without the hyphens, in either case; the hyphened form may stand in braces or after `urn:uuid:`, also in either
case.
-/

namespace DefiComposer

/-- 128 bits, as hexadecimal digits. -/
structure Uuid where
  digits : List (Fin 16)
  length_digits : digits.length = 32
  deriving DecidableEq

namespace Uuid

/-- The identity of which every bit is zero. -/
def zero : Uuid := ⟨List.replicate 32 0, by simp⟩

instance : Inhabited Uuid := ⟨zero⟩

/-- The hexadecimal digit of a value, in small letters. -/
def digitChar (d : Fin 16) : Char := Nat.digitChar d.val

/-- The digits in groups of 8, 4, 4, 4 and 12, with hyphens between. -/
def hyphened {α : Type} (hyphen : α) (ds : List α) : List α :=
  ds.take 8 ++ hyphen :: (ds.drop 8).take 4 ++ hyphen :: (ds.drop 12).take 4 ++ hyphen :: (ds.drop 16).take 4 ++
    hyphen :: ds.drop 20

/-- The written form. -/
def text (u : Uuid) : String := String.ofList (hyphened '-' (u.digits.map digitChar))

/-- The digit that a character writes, in either case. -/
def digit? (c : Char) : Option (Fin 16) :=
  match Json.hexValue? c with
  | some n => if h : n < 16 then some ⟨n, h⟩ else none
  | none => none

/-- The identity that 32 hexadecimal digits write. -/
def ofDigits? (s : List Char) : Option Uuid := do
  let ds ← s.mapM digit?
  if h : ds.length = 32 then some ⟨ds, h⟩ else none

/-- A hyphened text without its hyphens, which have to stand in their places. -/
def dropHyphens? (s : List Char) : Option (List Char) :=
  let ds := s.take 8 ++ (s.drop 9).take 4 ++ (s.drop 14).take 4 ++ (s.drop 19).take 4 ++ s.drop 24
  if hyphened '-' ds = s then some ds else none

/-- The identity that a text writes. -/
def parse? (text : String) : Option Uuid :=
  let s := text.toList
  match s.length with
  | 32 => ofDigits? s
  | 36 => (dropHyphens? s).bind ofDigits?
  | 38 =>
    if s.head? = some '\x7b' ∧ s.getLast? = some '\x7d' then (dropHyphens? (s.drop 1).dropLast).bind ofDigits?
    else none
  | 45 =>
    if (s.take 9).map Char.toLower = "urn:uuid:".toList then (dropHyphens? (s.drop 9)).bind ofDigits? else none
  | _ => none

end Uuid

end DefiComposer
