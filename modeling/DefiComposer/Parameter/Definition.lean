import DefiComposer.Parameter.Value
import DefiComposer.Text.Quoted

/-!
# Parameter definitions: what a kind of primitive declares, and the check of a value against it

A definition names a parameter, gives its type and default and the rules its values obey. `check` answers the first rule
that a value breaks: presence, type, least and greatest number, permitted tags.
-/

namespace DefiComposer

/-- A default as it is declared. -/
inductive Literal where
  | number (value : Float)
  | text (value : String)
  | boolean (value : Bool)

/-- The rules for the values of a parameter. An empty list of permitted tags permits all. -/
structure Constraints where
  minimum : Option Float := none
  maximum : Option Float := none
  allowed : List String := []
  required : Bool := true

/-- A parameter that has to be there, with no further rule. -/
def Constraints.presence : Constraints := {}

/-- A number between two bounds. -/
def Constraints.range (minimum maximum : Float) : Constraints :=
  { minimum := some minimum, maximum := some maximum }

/-- One of some tags. -/
def Constraints.oneOf (allowed : List String) : Constraints := { allowed := allowed }

/-- The definition of a parameter. -/
structure Parameter where
  id : String
  name : String
  type : ParameterType
  description : String
  default : Literal
  constraints : Constraints

/-- A rule of a parameter that a value breaks. -/
inductive Violation where
  | required (parameter : String)
  | belowMinimum (parameter : String) (minimum value : Float)
  | aboveMaximum (parameter : String) (maximum value : Float)
  | notAllowed (parameter value : String) (allowed : List String)
  | wrongType (parameter : String) (expected : ParameterType)
  deriving DecidableEq

namespace Violation

/-- The parameter whose rule is broken. -/
def parameter : Violation → String
  | required p => p
  | belowMinimum p _ _ => p
  | aboveMaximum p _ _ => p
  | notAllowed p _ _ => p
  | wrongType p _ => p

/-- The message of a violation. -/
def message : Violation → String
  | required p => "parameter '" ++ p ++ "' is required"
  | belowMinimum p minimum value =>
    "parameter '" ++ p ++ "' must be at least " ++ plainText minimum ++ " (got " ++ plainText value ++ ")"
  | aboveMaximum p maximum value =>
    "parameter '" ++ p ++ "' must be at most " ++ plainText maximum ++ " (got " ++ plainText value ++ ")"
  | notAllowed p value allowed =>
    "parameter '" ++ p ++ "' must be one of " ++ Text.quotedList allowed ++ " (got '" ++ value ++ "')"
  | wrongType p expected => "parameter '" ++ p ++ "' expects a " ++ expected.tag ++ " value"

end Violation

namespace Parameter

/-- The value that a new primitive starts with: the declared default as far as it fits the type, else none. -/
def defaultValue (p : Parameter) : ParameterValue :=
  match p.type, p.default with
  | .number, .number x => .number x
  | .boolean, .boolean b => .boolean b
  | type, .text s =>
    match ParameterValue.ofText type s with
    | .ok v => v
    | .error _ => .unset
  | _, _ => .unset

/-- The bound that a number breaks, the lower one first. -/
def checkRange (p : Parameter) (x : Float) : Except Violation Unit :=
  match p.constraints.minimum, p.constraints.maximum with
  | some minimum, some maximum =>
    if x < minimum then .error (.belowMinimum p.id minimum x)
    else if maximum < x then .error (.aboveMaximum p.id maximum x)
    else .ok ()
  | some minimum, none => if x < minimum then .error (.belowMinimum p.id minimum x) else .ok ()
  | none, some maximum => if maximum < x then .error (.aboveMaximum p.id maximum x) else .ok ()
  | none, none => .ok ()

/-- Whether a tag is one of the permitted ones. -/
def checkTag (p : Parameter) (tag : String) : Except Violation Unit :=
  if p.constraints.allowed.isEmpty || p.constraints.allowed.contains tag then .ok ()
  else .error (.notAllowed p.id tag p.constraints.allowed)

/-- The first rule that a value breaks. -/
def check (p : Parameter) (value : ParameterValue) : Except Violation Unit :=
  if value.isEmpty then
    if p.constraints.required then .error (.required p.id) else .ok ()
  else if value.type? ≠ some p.type then .error (.wrongType p.id p.type)
  else
    match value with
    | .number x => p.checkRange x
    | .enumTag tag => p.checkTag tag
    | _ => .ok ()

end Parameter

end DefiComposer
