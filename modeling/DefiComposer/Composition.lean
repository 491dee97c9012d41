import DefiComposer.Catalog
import DefiComposer.Compatibility
import DefiComposer.Primitive
import DefiComposer.Timestamp
import DefiComposer.Uuid

/-!
# Composition: primitives and the connections between their ports

A composition holds its primitives and connections in the order in which they were added. The parts of this module are the
composition with its look-ups, the edits in place, and the rules under which two ports may be connected.
-/

namespace DefiComposer

/-!
## Parts and look-ups

Look-ups by port go through the primitives in their order and take the first port that fits. Nothing here asks whether the
parts fit together: a composition may be put together from any parts, and validation says what is wrong with it.
-/

/-- A directed edge from an output port to an input port, with the tag that the source had when it was made. -/
structure Connection where
  id : ConnectionId
  source : PortId
  target : PortId
  resourceType : String
  deriving DecidableEq, Inhabited

/-- The graph that is being edited. -/
structure Composition where
  id : Uuid
  name : String
  description : String
  primitives : OrderedMap PrimitiveId Primitive
  connections : OrderedMap ConnectionId Connection
  createdAt : Timestamp
  updatedAt : Timestamp
  ids : IdSupply
  deriving Inhabited

namespace Composition

/-- A composition without parts, made at a moment. -/
def new (id : Uuid) (now : Timestamp) (name description : String) : Composition :=
  { id, name, description, primitives := ∅, connections := ∅, createdAt := now, updatedAt := now, ids := {} }

/-- The primitive under a name. -/
def primitive? (c : Composition) (id : PrimitiveId) : Option Primitive := c.primitives.get? id

/-- The connection under a name. -/
def connection? (c : Composition) (id : ConnectionId) : Option Connection := c.connections.get? id

/-- The first output port of a name. -/
def output? (c : Composition) (id : PortId) : Option Port := c.primitives.values.findSome? (·.output? id)

/-- The first input port of a name. -/
def input? (c : Composition) (id : PortId) : Option Port := c.primitives.values.findSome? (·.input? id)

/-- The first port of a name, on either side. -/
def port? (c : Composition) (id : PortId) : Option Port :=
  c.primitives.values.findSome? fun p => p.ports.find? (·.id = id)

/-- The primitive that the first port of a name says it belongs to. -/
def portOwner? (c : Composition) (id : PortId) : Option PrimitiveId := (c.port? id).map (·.owner)

/-- The first connection from one port to another. -/
def between? (c : Composition) (source target : PortId) : Option Connection :=
  c.connections.values.find? fun k => k.source = source ∧ k.target = target

/-- Whether there is a connection from one port to another. -/
def hasConnection (c : Composition) (source target : PortId) : Bool := (c.between? source target).isSome

end Composition

/-- Whether a connection starts or ends at a port of a primitive. -/
def Primitive.touches (p : Primitive) (k : Connection) : Bool := p.ownsPort k.source || p.ownsPort k.target

/-- The connections that start or end at a port of the primitive under a name. -/
def Composition.incident (c : Composition) (id : PrimitiveId) : List Connection :=
  match c.primitive? id with
  | some p => c.connections.values.filter p.touches
  | none => []

/-!
## Edits: changes to a composition in place

Each edit answers a result together with the composition that it leaves. An edit that succeeds stamps the composition with
the moment it is given, even if it changes nothing else; one that fails, or removes what is not there, leaves it as it was.
-/

/-- A primitive that was removed, with the connections that went with it. -/
structure Removal where
  primitive : Primitive
  connections : List Connection

namespace Composition

/-- Gives the composition a name. -/
def rename (c : Composition) (now : Timestamp) (name : String) : Composition :=
  { c with name, updatedAt := now }

/-- Gives the composition a description. -/
def describe (c : Composition) (now : Timestamp) (description : String) : Composition :=
  { c with description, updatedAt := now }

/-- Adds a fresh primitive of a kind. -/
def addPrimitive (c : Composition) (now : Timestamp) (kind : Kind) (position : Position) : Primitive × Composition :=
  let (p, ids) := Catalog.instantiate kind position c.ids
  (p, { c with primitives := c.primitives.insert p.id p, ids, updatedAt := now })

/-- Puts a changed primitive in the place of the one under a name, and answers the changed one. -/
def update (c : Composition) (now : Timestamp) (id : PrimitiveId) (change : Primitive → Primitive) :
    Except LookupError Primitive × Composition :=
  match c.primitive? id with
  | none => (.error (.primitiveNotFound id), c)
  | some p =>
    let p := change p
    (.ok p, { c with primitives := c.primitives.insert id p, updatedAt := now })

/-- Moves a primitive. -/
def setPosition (c : Composition) (now : Timestamp) (id : PrimitiveId) (position : Position) :
    Except LookupError Primitive × Composition :=
  c.update now id fun p => { p with position }

/-- Stores a value for a parameter as it is: nothing is checked, and a parameter without a record gets one. -/
def setParameter (c : Composition) (now : Timestamp) (id : PrimitiveId) (parameter : String) (value : ParameterValue) :
    Except LookupError Primitive × Composition :=
  c.update now id fun p => { p with parameters := p.parameters.insert parameter value }

/-- Applies a patch to a primitive. -/
def patch (c : Composition) (now : Timestamp) (id : PrimitiveId) (patch : PrimitivePatch) :
    Except LookupError Primitive × Composition :=
  c.update now id (·.apply patch)

/-- Removes a primitive, and with it every connection at one of its ports. -/
def removePrimitive (c : Composition) (now : Timestamp) (id : PrimitiveId) : Option Removal × Composition :=
  match c.primitive? id with
  | none => (none, c)
  | some p =>
    (some ⟨p, c.connections.values.filter p.touches⟩,
      { c with
        primitives := c.primitives.erase id
        connections := c.connections.filter fun k => !p.touches k
        updatedAt := now })

/-- Adds a connection from an output port to an input port that both exist; nothing else is asked. -/
def insertConnection (c : Composition) (now : Timestamp) (source target : PortId) (resourceType : String) :
    Except LookupError Connection × Composition :=
  if (c.output? source).isNone then (.error (.portNotFound source), c)
  else if (c.input? target).isNone then (.error (.portNotFound target), c)
  else
    let (id, ids) := c.ids.connection
    let k : Connection := ⟨id, source, target, resourceType⟩
    (.ok k, { c with connections := c.connections.insert id k, ids, updatedAt := now })

/-- Removes a connection. -/
def removeConnection (c : Composition) (now : Timestamp) (id : ConnectionId) : Option Connection × Composition :=
  match c.connection? id with
  | none => (none, c)
  | some k => (some k, { c with connections := c.connections.erase id, updatedAt := now })

end Composition

/-!
## Connect: the rules for new connections

`resolve` decides on an attempt to connect two ports without changing anything: the source has to be an output port and the
target an input port, they must not belong to one primitive, they must not be connected already, and their tags have to go
together. The first of these that fails is the answer. `connect` adds the connection when all hold.
-/

/-- Why two ports cannot be connected. -/
inductive ConnectError where
  | portNotFound (source target : PortId) (sourceFound targetFound : Bool)
  | selfConnection (primitive : PrimitiveId)
  | duplicateConnection (existing : ConnectionId)
  | incompatibleTypes (source target : String)
  deriving DecidableEq

/-- The text of a truth value. -/
def ConnectError.flag (b : Bool) : String := if b then "true" else "false"

/-- The message of a refusal. -/
def ConnectError.message : ConnectError → String
  | portNotFound source target sourceFound targetFound =>
    "source or target port not found (source " ++ source.val.repr ++ ": " ++ flag sourceFound ++ ", target " ++
      target.val.repr ++ ": " ++ flag targetFound ++ ")"
  | selfConnection primitive => "cannot connect primitive " ++ primitive.val.repr ++ " to itself"
  | duplicateConnection existing =>
    "connection already exists between these ports (connection " ++ existing.val.repr ++ ")"
  | incompatibleTypes source target =>
    "incompatible resource types: '" ++ source ++ "' cannot feed '" ++ target ++ "'"

/-- Two ports that may be connected, with the tier that accepts their tags. -/
structure Resolution where
  source : Port
  target : Port
  tier : Tier

namespace Composition

/-- The decision on an attempt to connect two ports. -/
def resolve (c : Composition) (source target : PortId) : Except ConnectError Resolution :=
  match c.output? source, c.input? target with
  | some s, some t =>
    if s.owner = t.owner then .error (.selfConnection s.owner)
    else
      match c.between? source target with
      | some existing => .error (.duplicateConnection existing.id)
      | none =>
        match compatibility s.resourceType t.resourceType with
        | some tier => .ok ⟨s, t, tier⟩
        | none => .error (.incompatibleTypes s.resourceType t.resourceType)
  | s, t => .error (.portNotFound source target s.isSome t.isSome)

/-- Connects two ports if the rules allow it; the connection carries the tag of its source. -/
def connect (c : Composition) (now : Timestamp) (source target : PortId) :
    Except ConnectError Connection × Composition :=
  match c.resolve source target with
  | .error e => (.error e, c)
  | .ok r =>
    match c.insertConnection now source target r.source.resourceType with
    | (.ok k, next) => (.ok k, next)
    | (.error _, next) => (.error (.portNotFound source target false false), next)

end Composition

end DefiComposer
