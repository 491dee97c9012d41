import DefiComposer.Catalog
import DefiComposer.Json.Basic
import DefiComposer.Move.Generation
import DefiComposer.Parameter.Definition
import DefiComposer.Validation

/-!
# Forms: the JSON forms of parameters, templates, findings and options
-/

namespace DefiComposer

/-!
## JSON form of parameters: values and definitions

A value is an object with the member `type` and, unless it is the absence of a value, the member `value`.
-/

namespace ParameterValue

/-- The name of the form of a value. -/
def formTag : ParameterValue → String
  | number _ => "number"
  | text _ => "text"
  | boolean _ => "boolean"
  | enumTag _ => "enumTag"
  | asset _ => "asset"
  | address _ => "address"
  | unset => "unset"

/-- What a value holds. -/
def content? : ParameterValue → Option Json
  | number x => some (.ofFloat x)
  | text s => some (.string s)
  | boolean b => some (.bool b)
  | enumTag s => some (.string s)
  | asset s => some (.string s)
  | address s => some (.string s)
  | unset => none

/-- The JSON form of a value. -/
def toJson (v : ParameterValue) : Json :=
  .object <|
    ("type", .string v.formTag) ::
      match v.content? with
      | some content => [("value", content)]
      | none => []

/-- The value of a form with some content. -/
def ofContent? (form : String) (content : Json) : Option ParameterValue :=
  match form with
  | "number" => content.float?.map number
  | "text" => content.string?.map text
  | "boolean" => content.bool?.map boolean
  | "enumTag" => content.string?.map enumTag
  | "asset" => content.string?.map asset
  | "address" => content.string?.map address
  | "unset" => match content with
    | .null => some unset
    | _ => none
  | _ => none

/-- The value that a JSON value writes. Only the absence of a value may stand without content, and only in an object; in an
array the form is a string. -/
def decode? (j : Json) : Option ParameterValue := do
  let r ← j.record? ["type", "value"]
  let form ← r.required? "type" (if r.listed then Json.string? else Json.tag?)
  match r.fields.lookup "value" with
  | some content => ofContent? form content
  | none => if form = "unset" ∧ !r.listed then some unset else none

end ParameterValue

/-- The JSON form of a default. -/
def Literal.toJson : Literal → Json
  | number x => .ofFloat x
  | text s => .string s
  | boolean b => .bool b

/-- The JSON form of the rules for a parameter. -/
def Constraints.toJson (c : Constraints) : Json :=
  .object
    [ ("minimum", .ofOption .ofFloat c.minimum), ("maximum", .ofOption .ofFloat c.maximum),
      ("allowed", .ofStrings c.allowed), ("required", .bool c.required) ]

/-- The JSON form of a definition. -/
def Parameter.toJson (p : Parameter) : Json :=
  .object
    [ ("id", .string p.id), ("name", .string p.name), ("type", .string p.type.tag),
      ("description", .string p.description), ("default", p.default.toJson), ("constraints", p.constraints.toJson) ]

/-! ## JSON form of the catalog -/

/-- The JSON form of a declared port. -/
def PortSpec.toJson (s : PortSpec) : Json :=
  .object [("resource_type", .string s.resourceType), ("label", .string s.label)]

/-- The JSON form of a template. -/
def Template.toJson (t : Template) : Json :=
  .object
    [ ("kind", .string t.kind.tag), ("name", .string t.name), ("description", .string t.description),
      ("category", .string t.category), ("tags", .ofStrings t.tags),
      ("parameters", .array (t.parameters.map Parameter.toJson)), ("inputs", .array (t.inputs.map PortSpec.toJson)),
      ("outputs", .array (t.outputs.map PortSpec.toJson)) ]

/-!
## JSON form of findings and reports

Absent parts of a location, and an absent location, are left out.
-/

/-- A member that is left out where the value is absent. -/
def Json.present {α : Type} (name : String) (encode : α → Json) : Option α → List (Json.Name × Json)
  | some a => [(name, encode a)]
  | none => []

namespace Location

/-- The JSON form of a location. -/
def toJson (l : Location) : Json :=
  .object <|
    Json.present "primitive" (fun id => .ofNat id.val) l.primitive ++
      Json.present "connection" (fun id => .ofNat id.val) l.connection ++
      Json.present "parameter" .string l.parameter

/-- The location that a JSON value writes. -/
def decode? (j : Json) : Option Location := do
  let r ← j.record? ["primitive", "connection", "parameter"]
  let primitive ← r.optional? "primitive" Json.word?
  let connection ← r.optional? "connection" Json.word?
  let parameter ← r.optional? "parameter" Json.string?
  return { primitive := primitive.map .mk, connection := connection.map .mk, parameter }

end Location

namespace Issue

/-- The JSON form of a finding. -/
def toJson (i : Issue) : Json :=
  .object <|
    ("severity", .string i.severity.tag) :: ("kind", .string i.kind.tag) :: ("message", .string i.message) ::
      Json.present "location" Location.toJson i.location

/-- The finding that a JSON value writes. -/
def decode? (j : Json) : Option Issue := do
  let r ← j.record? ["severity", "kind", "message", "location"]
  let severity ← r.required? "severity" fun j => j.tag?.bind Severity.ofTag?
  let kind ← r.required? "kind" fun j => j.tag?.bind IssueKind.ofTag?
  let message ← r.required? "message" Json.string?
  let location ← r.optional? "location" Location.decode?
  return { severity, kind, message, location }

end Issue

/-- The JSON form of a report. -/
def Report.toJson (r : Report) : Json :=
  .object [("valid", .bool r.isValid), ("issues", .array (r.issues.map Issue.toJson))]

end DefiComposer

namespace DefiComposer.Move.Options

/-! ## JSON form of the options of a generation -/

/-- The JSON form of the options. -/
def toJson (o : Options) : Json :=
  .object [("module_address", .ofOption .string o.moduleAddress), ("include_wiring", .bool o.includeWiring)]

/-- The options that a JSON value writes; what is absent is as in the default options. -/
def decode? (j : Json) : Option Options := do
  let r ← j.record? ["module_address", "include_wiring"]
  let moduleAddress ← r.withDefault? "module_address" none (Json.nullable? Json.string?)
  let includeWiring ← r.withDefault? "include_wiring" true Json.bool?
  return { moduleAddress, includeWiring }

end DefiComposer.Move.Options
