import DefiComposer.Composition
import DefiComposer.Move.Generation
import DefiComposer.Validation

/-!
# Store: the owner of one composition

A store runs every edit on its composition and takes what the edit leaves only if it succeeded. So an earlier composition
that someone kept is never changed, and an edit that fails changes nothing.
-/

namespace DefiComposer

/-- Why an edit through a store fails: something is not there, raw input does not give a value, or the value breaks a rule
of its parameter. -/
inductive EditError where
  | lookup (error : LookupError)
  | parameter (error : ParameterError)
  | violation (violation : Violation)
  deriving DecidableEq

/-- The message of a failed edit. -/
def EditError.message : EditError → String
  | lookup e => e.message
  | parameter e => "invalid parameter value: " ++ e.message
  | violation v => "constraint violated: " ++ v.message

/-- A composition with the options under which its module is generated. -/
structure Store where
  composition : Composition
  options : Move.Options
  deriving Inhabited

namespace Store

/-- The name of a composition that was given none. -/
def defaultName : String := "Untitled Composition"

/-- The description of a composition that was given none. -/
def defaultDescription : String := "A DeFi composition"

/-- A store that holds a composition, with the default options. -/
def ofComposition (composition : Composition) : Store := ⟨composition, {}⟩

/-- A store that holds a new composition. -/
def new (id : Uuid) (now : Timestamp) (name description : String) : Store :=
  ofComposition (.new id now name description)

/-- A store that holds a new composition with the default name. -/
def untitled (id : Uuid) (now : Timestamp) : Store := new id now defaultName defaultDescription

/-- Runs an edit and takes the composition it leaves if it succeeds. -/
def commit {ε α : Type} (s : Store) (edit : Composition → Except ε α × Composition) : Except ε α × Store :=
  match edit s.composition with
  | (.ok a, next) => (.ok a, { s with composition := next })
  | (.error e, _) => (.error e, s)

/-- Runs a removal and takes the composition it leaves if it removed something. -/
def commitRemoval {α : Type} (s : Store) (removal : Composition → Option α × Composition) : Option α × Store :=
  match removal s.composition with
  | (some a, next) => (some a, { s with composition := next })
  | (none, _) => (none, s)

/-- Adds a fresh primitive. -/
def addPrimitive (s : Store) (now : Timestamp) (kind : Kind) (position : Position) : Primitive × Store :=
  let (p, next) := s.composition.addPrimitive now kind position
  (p, { s with composition := next })

/-- Applies a patch to a primitive. -/
def updatePrimitive (s : Store) (now : Timestamp) (id : PrimitiveId) (patch : PrimitivePatch) :
    Except LookupError Primitive × Store :=
  s.commit (·.patch now id patch)

/-- Removes a primitive and the connections at its ports. -/
def removePrimitive (s : Store) (now : Timestamp) (id : PrimitiveId) : Option Removal × Store :=
  s.commitRemoval (·.removePrimitive now id)

/-- Moves a primitive. -/
def movePrimitive (s : Store) (now : Timestamp) (id : PrimitiveId) (position : Position) :
    Except LookupError Primitive × Store :=
  s.commit (·.setPosition now id position)

/-- Stores a value for a parameter as it is. -/
def setParameter (s : Store) (now : Timestamp) (id : PrimitiveId) (parameter : String) (value : ParameterValue) :
    Except LookupError Primitive × Store :=
  s.commit (·.setParameter now id parameter value)

/-- The value that raw input gives for a parameter of a primitive, as the declared type and the rules of the parameter ask;
the first of primitive, declaration, conversion and rules that fails is the answer. -/
def readParameter (c : Composition) (id : PrimitiveId) (parameter : String) (raw : Json) :
    Except EditError ParameterValue :=
  match c.primitive? id with
  | none => .error (.lookup (.primitiveNotFound id))
  | some p =>
    match p.kind.template.parameter? parameter with
    | none => .error (.parameter (.unknownParameter p.kind.tag parameter))
    | some definition =>
      match ParameterValue.ofJson definition.type raw with
      | .error e => .error (.parameter e)
      | .ok value =>
        match definition.check value with
        | .error v => .error (.violation v)
        | .ok () => .ok value

/-- Stores the value that raw input gives for a parameter, and answers it. -/
def setParameterFromJson (s : Store) (now : Timestamp) (id : PrimitiveId) (parameter : String) (raw : Json) :
    Except EditError ParameterValue × Store :=
  match readParameter s.composition id parameter raw with
  | .error e => (.error e, s)
  | .ok value =>
    match s.setParameter now id parameter value with
    | (.ok _, next) => (.ok value, next)
    | (.error e, next) => (.error (.lookup e), next)

/-- Connects two ports. -/
def connect (s : Store) (now : Timestamp) (source target : PortId) : Except ConnectError Connection × Store :=
  s.commit (·.connect now source target)

/-- Removes a connection. -/
def removeConnection (s : Store) (now : Timestamp) (id : ConnectionId) : Option Connection × Store :=
  s.commitRemoval (·.removeConnection now id)

/-- The findings on the composition. -/
def validate (s : Store) : Report := s.composition.validate

/-- The text of the module of the composition. -/
def exportText? (s : Store) : Option String := s.composition.generate? s.options

end Store

end DefiComposer
