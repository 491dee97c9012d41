import DefiComposer.OrderedMap
import DefiComposer.Parameter.Value
import DefiComposer.Text.Basic

/-!
# Primitive: one building block with its ports, and the numbers that name the parts
-/

namespace DefiComposer

/-!
## Identity: the numbers that name the parts of a composition

Primitives, ports and connections are named by numbers of three types, so that none can stand for another. An `IdSupply`
hands them out: each counter only grows, so a number is never handed out twice, even after what it named is gone.
-/

/-- The name of a primitive in a composition. -/
structure PrimitiveId where
  val : Nat
  deriving DecidableEq, Inhabited

/-- The name of a port, unique over all primitives of a composition. -/
structure PortId where
  val : Nat
  deriving DecidableEq, Inhabited

/-- The name of a connection in a composition. -/
structure ConnectionId where
  val : Nat
  deriving DecidableEq, Inhabited

/-- The next number of each kind. -/
structure IdSupply where
  nextPrimitive : Nat := 0
  nextPort : Nat := 0
  nextConnection : Nat := 0
  deriving DecidableEq, Inhabited

namespace IdSupply

/-- A fresh name for a primitive. -/
def primitive (ids : IdSupply) : PrimitiveId × IdSupply :=
  (⟨ids.nextPrimitive⟩, { ids with nextPrimitive := ids.nextPrimitive + 1 })

/-- A fresh name for a port. -/
def port (ids : IdSupply) : PortId × IdSupply :=
  (⟨ids.nextPort⟩, { ids with nextPort := ids.nextPort + 1 })

/-- A fresh name for a connection. -/
def connection (ids : IdSupply) : ConnectionId × IdSupply :=
  (⟨ids.nextConnection⟩, { ids with nextConnection := ids.nextConnection + 1 })

end IdSupply

/-!
## Primitives and ports

A primitive is of one of four kinds. Its ports carry a tag that says what flows through them; identity, kind and ports are
settled when it is made, and a patch changes the rest.
-/

/-- The kinds of building blocks. -/
inductive Kind where
  | lendingPool
  | ammPool
  | staking
  | vault
  deriving DecidableEq, Inhabited

namespace Kind

/-- All kinds, in the order of the catalog. -/
def all : List Kind := [lendingPool, ammPool, staking, vault]

/-- The name of a kind. -/
def tag : Kind → String
  | lendingPool => "lendingPool"
  | ammPool => "ammPool"
  | staking => "staking"
  | vault => "vault"

/-- The kind of a name. -/
def ofTag? (tag : String) : Option Kind := all.find? (·.tag == tag)

end Kind

/-- A look-up that finds nothing. -/
inductive LookupError where
  | unknownKind (tag : String)
  | primitiveNotFound (id : PrimitiveId)
  | portNotFound (id : PortId)
  deriving DecidableEq

/-- The message of a failed look-up. -/
def LookupError.message : LookupError → String
  | unknownKind tag => "unknown primitive kind: '" ++ tag ++ "'"
  | primitiveNotFound id => "primitive not found: PrimitiveId(" ++ id.val.repr ++ ")"
  | portNotFound id => "port not found: PortId(" ++ id.val.repr ++ ")"

/-- The kind of a name, or the error that there is none. -/
def Kind.ofTag (tag : String) : Except LookupError Kind :=
  match ofTag? tag with
  | some kind => .ok kind
  | none => .error (.unknownKind tag)

/-- A place on the canvas. It means nothing to validation or generation. -/
structure Position where
  x : Float := 0
  y : Float := 0
  deriving DecidableEq, Inhabited

/-- The side of a primitive that a port is on. -/
inductive Direction where
  | input
  | output
  deriving DecidableEq, Inhabited

/-- The name of a direction. -/
def Direction.tag : Direction → String
  | input => "input"
  | output => "output"

/-- The direction of a name. -/
def Direction.ofTag? (tag : String) : Option Direction := [input, output].find? (·.tag == tag)

/-- A connection point of a primitive. -/
structure Port where
  id : PortId
  /-- The primitive that the port belongs to. -/
  owner : PrimitiveId
  direction : Direction
  /-- The tag of what flows through the port. -/
  resourceType : String
  label : String
  deriving DecidableEq, Inhabited

/-- A building block in a composition. -/
structure Primitive where
  id : PrimitiveId
  kind : Kind
  position : Position
  label : String
  description : String
  parameters : OrderedMap String ParameterValue
  inputs : List Port
  outputs : List Port
  deriving Inhabited

/-- The fields of a primitive that an update gives. -/
structure PrimitivePatch where
  label : Option String := none
  description : Option String := none
  position : Option Position := none
  parameters : Option (OrderedMap String ParameterValue) := none

namespace Primitive

/-- The input ports, then the output ports. -/
def ports (p : Primitive) : List Port := p.inputs ++ p.outputs

/-- Whether a port is one of the primitive's. -/
def ownsPort (p : Primitive) (id : PortId) : Bool := p.ports.any (·.id = id)

/-- An input port by its name. -/
def input? (p : Primitive) (id : PortId) : Option Port := p.inputs.find? (·.id = id)

/-- An output port by its name. -/
def output? (p : Primitive) (id : PortId) : Option Port := p.outputs.find? (·.id = id)

/-- The first input port with a label, the case of ASCII letters aside. -/
def inputLabeled? (p : Primitive) (label : String) : Option Port :=
  p.inputs.find? (Text.sameIgnoringCase ·.label label)

/-- The first output port with a label, the case of ASCII letters aside. -/
def outputLabeled? (p : Primitive) (label : String) : Option Port :=
  p.outputs.find? (Text.sameIgnoringCase ·.label label)

/-- The value held for a parameter. -/
def parameter? (p : Primitive) (id : String) : Option ParameterValue := p.parameters.get? id

/-- The primitive with the fields of a patch in place of its own; the parameters are replaced as a whole. -/
def apply (p : Primitive) (patch : PrimitivePatch) : Primitive :=
  { p with
    label := patch.label.getD p.label
    description := patch.description.getD p.description
    position := patch.position.getD p.position
    parameters := patch.parameters.getD p.parameters }

end Primitive

end DefiComposer
