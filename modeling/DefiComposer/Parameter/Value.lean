import DefiComposer.Text.Basic
import DefiComposer.Json.Printer
import DefiComposer.Decimal.Reading

/-!
# Parameter values: what a primitive holds for a parameter

A parameter has a declared type, and a primitive holds a value for it or nothing. A value that is not there and an empty
text count alike as empty. `ofText` and `ofJson` turn input without a type into a value of a declared one.
-/

namespace DefiComposer

/-- The declared type of a parameter. -/
inductive ParameterType where
  | number
  | string
  | boolean
  | enumeration
  | asset
  | address
  deriving DecidableEq, Inhabited

namespace ParameterType

/-- All types. -/
def all : List ParameterType := [number, string, boolean, enumeration, asset, address]

/-- The name of a type. -/
def tag : ParameterType → String
  | number => "number"
  | string => "string"
  | boolean => "boolean"
  | enumeration => "enum"
  | asset => "asset"
  | address => "address"

/-- The type of a name. -/
def ofTag? (tag : String) : Option ParameterType := all.find? (·.tag == tag)

end ParameterType

/-- The value of a parameter, or its absence. -/
inductive ParameterValue where
  | number (value : Float)
  | text (value : String)
  | boolean (value : Bool)
  | enumTag (value : String)
  | asset (value : String)
  | address (value : String)
  | unset
  deriving DecidableEq, Inhabited

/-- Why input does not give a value for a parameter. -/
inductive ParameterError where
  | typeMismatch (expected : ParameterType) (found : String)
  | unknownParameter (kind parameter : String)
  deriving DecidableEq

/-- The message of an error. -/
def ParameterError.message : ParameterError → String
  | typeMismatch expected found => "expected a " ++ expected.tag ++ " value, got " ++ found
  | unknownParameter kind parameter => "parameter '" ++ parameter ++ "' is not defined for " ++ kind

namespace ParameterValue

/-- The text of a value that holds one. -/
def text? : ParameterValue → Option String
  | text s => some s
  | enumTag s => some s
  | asset s => some s
  | address s => some s
  | number _ => none
  | boolean _ => none
  | unset => none

/-- The number of a value that holds one. -/
def number? : ParameterValue → Option Float
  | number x => some x
  | _ => none

/-- Whether nothing is there, or an empty text. -/
def isEmpty : ParameterValue → Bool
  | unset => true
  | number _ => false
  | boolean _ => false
  | text s => s.isEmpty
  | enumTag s => s.isEmpty
  | asset s => s.isEmpty
  | address s => s.isEmpty

/-- The type that a value belongs to. -/
def type? : ParameterValue → Option ParameterType
  | number _ => some .number
  | text _ => some .string
  | boolean _ => some .boolean
  | enumTag _ => some .enumeration
  | asset _ => some .asset
  | address _ => some .address
  | unset => none

/-- The value as a person reads it. -/
def display : ParameterValue → String
  | number x => plainText x
  | boolean true => "true"
  | boolean false => "false"
  | text s => s
  | enumTag s => s
  | asset s => s
  | address s => s
  | unset => ""

/-- The value of a type that a text gives. A number or a truth value may stand between blanks; an empty text gives
none of either. -/
def ofText (type : ParameterType) (s : String) : Except ParameterError ParameterValue :=
  match type with
  | .string => .ok (text s)
  | .enumeration => .ok (enumTag s)
  | .asset => .ok (asset s)
  | .address => .ok (address s)
  | .number =>
    if s.isEmpty then .ok unset
    else
      match readFloat? (Text.trim s.toList) with
      | some x => .ok (number x)
      | none => .error (.typeMismatch type s)
  | .boolean =>
    if s.isEmpty then .ok unset
    else
      let word := String.ofList (Text.trim s.toList)
      if word = "true" then .ok (boolean true)
      else if word = "false" then .ok (boolean false)
      else .error (.typeMismatch type s)

/-- The value of a type that a JSON value gives: none for `null`, that of the text for a string, and a number or a truth
value for its own type only. -/
def ofJson (type : ParameterType) (raw : Json) : Except ParameterError ParameterValue :=
  let mismatch := ParameterError.typeMismatch type raw.canonical.compact
  match raw with
  | .null => .ok unset
  | .string s => ofText type s
  | .number n =>
    if type = .number then
      match n.toFloat? with
      | some x => .ok (number x)
      | none => .error mismatch
    else .error mismatch
  | .bool b => if type = .boolean then .ok (boolean b) else .error mismatch
  | .array _ => .error mismatch
  | .object _ => .error mismatch
  | .garbled => .error mismatch

end ParameterValue

end DefiComposer
