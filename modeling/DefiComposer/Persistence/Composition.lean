import DefiComposer.Composition
import DefiComposer.Json.Parser
import DefiComposer.Persistence.Forms

/-!
# JSON form of a composition

Maps are objects whose members stand in the order of the map; primitives and connections stand under their names in decimal.
Reading puts the members of a map one after another, so a repeated name keeps its first place and takes its last value.
-/

namespace DefiComposer

namespace OrderedMap

/-- The JSON form of a map. -/
def toJson {κ ν : Type} (key : κ → String) (value : ν → Json) (m : OrderedMap κ ν) : Json :=
  .object (m.entries.map fun entry => (key entry.1, value entry.2))

/-- The entry that a member writes. -/
def decodeMember? {κ ν : Type} (key? : Json.Name → Option κ) (value? : Json → Option ν) (member : Json.Name × Json) :
    Option (κ × ν) := do
  return (← key? member.1, ← value? member.2)

/-- The map that a JSON value writes. -/
def decode? {κ ν : Type} [DecidableEq κ] (key? : Json.Name → Option κ) (value? : Json → Option ν) :
    Json → Option (OrderedMap κ ν)
  | .object members =>
    (members.mapM (decodeMember? key? value?)).map .ofList
  | _ => none

end OrderedMap

namespace Position

/-- The JSON form of a position. -/
def toJson (p : Position) : Json := .object [("x", .ofFloat p.x), ("y", .ofFloat p.y)]

/-- The position that a JSON value writes. -/
def decode? (j : Json) : Option Position := do
  let r ← j.record? ["x", "y"]
  return { x := ← r.required? "x" Json.float?, y := ← r.required? "y" Json.float? }

end Position

namespace Port

/-- The JSON form of a port. -/
def toJson (p : Port) : Json :=
  .object
    [ ("id", .ofNat p.id.val), ("primitive", .ofNat p.owner.val), ("direction", .string p.direction.tag),
      ("resource_type", .string p.resourceType), ("label", .string p.label) ]

/-- The port that a JSON value writes. -/
def decode? (j : Json) : Option Port := do
  let r ← j.record? ["id", "primitive", "direction", "resource_type", "label"]
  return {
    id := ⟨← r.required? "id" Json.word?⟩
    owner := ⟨← r.required? "primitive" Json.word?⟩
    direction := ← r.required? "direction" fun j => j.tag?.bind Direction.ofTag?
    resourceType := ← r.required? "resource_type" Json.string?
    label := ← r.required? "label" Json.string? }

end Port

namespace Primitive

/-- The JSON form of a primitive. -/
def toJson (p : Primitive) : Json :=
  .object
    [ ("id", .ofNat p.id.val), ("kind", .string p.kind.tag), ("position", p.position.toJson),
      ("label", .string p.label), ("description", .string p.description),
      ("parameters", p.parameters.toJson (fun name => name) ParameterValue.toJson),
      ("inputs", .array (p.inputs.map Port.toJson)), ("outputs", .array (p.outputs.map Port.toJson)) ]

/-- The primitive that a JSON value writes. -/
def decode? (j : Json) : Option Primitive := do
  let r ← j.record? ["id", "kind", "position", "label", "description", "parameters", "inputs", "outputs"]
  return {
    id := ⟨← r.required? "id" Json.word?⟩
    kind := ← r.required? "kind" fun j => j.tag?.bind Kind.ofTag?
    position := ← r.required? "position" Position.decode?
    label := ← r.required? "label" Json.string?
    description := ← r.required? "description" Json.string?
    parameters := ← r.required? "parameters" (OrderedMap.decode? (fun name => some name.text) ParameterValue.decode?)
    inputs := ← r.required? "inputs" (Json.list? Port.decode?)
    outputs := ← r.required? "outputs" (Json.list? Port.decode?) }

end Primitive

namespace Connection

/-- The JSON form of a connection. -/
def toJson (k : Connection) : Json :=
  .object
    [ ("id", .ofNat k.id.val), ("source", .ofNat k.source.val), ("target", .ofNat k.target.val),
      ("resource_type", .string k.resourceType) ]

/-- The connection that a JSON value writes. -/
def decode? (j : Json) : Option Connection := do
  let r ← j.record? ["id", "source", "target", "resource_type"]
  return {
    id := ⟨← r.required? "id" Json.word?⟩
    source := ⟨← r.required? "source" Json.word?⟩
    target := ⟨← r.required? "target" Json.word?⟩
    resourceType := ← r.required? "resource_type" Json.string? }

end Connection

namespace IdSupply

/-- The JSON form of the counters. -/
def toJson (ids : IdSupply) : Json :=
  .object
    [ ("next_primitive", .ofNat ids.nextPrimitive), ("next_port", .ofNat ids.nextPort),
      ("next_connection", .ofNat ids.nextConnection) ]

/-- The counters that a JSON value writes. -/
def decode? (j : Json) : Option IdSupply := do
  let r ← j.record? ["next_primitive", "next_port", "next_connection"]
  return {
    nextPrimitive := ← r.required? "next_primitive" Json.word?
    nextPort := ← r.required? "next_port" Json.word?
    nextConnection := ← r.required? "next_connection" Json.word? }

end IdSupply

namespace Composition

/-- The JSON form of a composition. -/
def toJson (c : Composition) : Json :=
  .object
    [ ("id", .string c.id.text), ("name", .string c.name), ("description", .string c.description),
      ("primitives", c.primitives.toJson (·.val.repr) Primitive.toJson),
      ("connections", c.connections.toJson (·.val.repr) Connection.toJson),
      ("created_at", .string c.createdAt.text), ("updated_at", .string c.updatedAt.text), ("ids", c.ids.toJson) ]

/-- The composition that a JSON value writes. -/
def decode? (j : Json) : Option Composition := do
  let r ← j.record? ["id", "name", "description", "primitives", "connections", "created_at", "updated_at", "ids"]
  return {
    id := ← r.required? "id" fun j => j.string?.bind Uuid.parse?
    name := ← r.required? "name" Json.string?
    description := ← r.required? "description" Json.string?
    primitives := ← r.required? "primitives"
      (OrderedMap.decode? (fun name => (Json.wordName? name).map .mk) Primitive.decode?)
    connections := ← r.required? "connections"
      (OrderedMap.decode? (fun name => (Json.wordName? name).map .mk) Connection.decode?)
    createdAt := ← r.required? "created_at" fun j => j.string?.bind Timestamp.parse?
    updatedAt := ← r.required? "updated_at" fun j => j.string?.bind Timestamp.parse?
    ids := ← r.required? "ids" IdSupply.decode? }

/-- The JSON text of a composition. -/
def serialize (c : Composition) : String := c.toJson.compact

/-- The composition that a JSON text writes. -/
def deserialize? (text : String) : Option Composition := (Json.parse? text).bind decode?

end Composition

end DefiComposer
