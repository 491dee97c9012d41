import DefiComposer.Decimal.Reading
import DefiComposer.Json.Printer
import DefiComposer.Persistence.Forms
import DefiComposer.Store
import DefiComposer.Text.Basic

/-!
# Commands: the listing of the catalog, and the scaffold of a composition from flags
-/

namespace DefiComposer.CommandLine

/-! ## Listing: the catalog on the command line -/

/-- What a command leaves: the exit code and the two streams it wrote. -/
structure Outcome where
  exitCode : Nat
  stdout : String
  stderr : String
  deriving DecidableEq

/-- The bounds of a parameter in brackets, if it has any. -/
def boundsText (c : Constraints) : String :=
  let bounds :=
    (match c.minimum with
      | some x => ["min " ++ plainText x]
      | none => []) ++
    (match c.maximum with
      | some x => ["max " ++ plainText x]
      | none => []) ++
    if c.allowed.isEmpty then [] else ["one of " ++ String.intercalate "|" c.allowed]
  if bounds.isEmpty then "" else " (" ++ String.intercalate ", " bounds ++ ")"

/-- The line of a parameter. -/
def parameterLine (p : Parameter) : String :=
  "    " ++ p.id ++ ": " ++ p.type.tag ++ " = " ++ p.defaultValue.display ++ boundsText p.constraints ++ "\n"

/-- Ports with their tags, on one line. -/
def portsText (specs : List PortSpec) : String :=
  String.intercalate ", " (specs.map fun s => s.label ++ " <" ++ s.resourceType ++ ">")

/-- The description of a template. -/
def describe (t : Template) : String :=
  t.name ++ " (" ++ t.kind.tag ++ ") [" ++ t.category ++ "]\n  " ++ t.description ++ "\n  parameters:\n" ++
    String.join (t.parameters.map parameterLine) ++ "  inputs:  " ++ portsText t.inputs ++ "\n  outputs: " ++
    portsText t.outputs ++ "\n"

/-- The listing of the templates that a search finds: their descriptions, or their JSON form. It fails if there are
none. -/
def listing (search category : Option String) (json : Bool) : Outcome :=
  let templates := Catalog.search (search.getD "") category
  if templates.isEmpty then ⟨1, "", "No templates match.\n"⟩
  else if json then ⟨0, (Json.array (templates.map Template.toJson)).pretty ++ "\n", ""⟩
  else ⟨0, String.join (templates.map describe), ""⟩

/-!
## Flags: assignments and connections as they are given on the command line

Primitives are named by their position among those added. An assignment is `position.parameter=value`, a connection
`position:label=position:label`. Blanks around positions, parameters and labels do not count; those of a value do.
-/

/-- A parameter of a primitive and the raw value it is to have. -/
structure Assignment where
  index : Nat
  parameter : String
  value : String
  deriving DecidableEq

/-- A port named by its primitive and its label. -/
structure Endpoint where
  index : Nat
  label : String
  deriving DecidableEq

/-- Why a flag cannot be read. -/
inductive FlagError where
  | malformedAssignment (raw : String)
  | malformedIndex (raw : String)
  | malformedConnection (raw : String)
  deriving DecidableEq

/-- The message of an error. -/
def FlagError.message : FlagError → String
  | malformedAssignment raw => "invalid --set '" ++ raw ++ "', expected IDX.PARAM=VALUE"
  | malformedIndex raw => "invalid primitive index '" ++ raw ++ "'"
  | malformedConnection raw =>
    "invalid --connect '" ++ raw ++ "', expected SRC_IDX:OUTPUT_LABEL=DST_IDX:INPUT_LABEL"

/-- The position that a text gives between blanks. -/
def trimmedIndex? (s : List Char) : Option Nat := readIndex? (Text.trim s)

/-- The assignment that a flag gives. -/
def readAssignment (raw : String) : Except FlagError Assignment :=
  match Text.splitFirst '=' raw.toList with
  | none => .error (.malformedAssignment raw)
  | some (target, value) =>
    match Text.splitFirst '.' target with
    | none => .error (.malformedAssignment raw)
    | some (index, parameter) =>
      match trimmedIndex? index with
      | none => .error (.malformedIndex (String.ofList index))
      | some n => .ok ⟨n, String.ofList (Text.trim parameter), String.ofList value⟩

/-- The endpoint that a text gives. -/
def readEndpoint? (s : List Char) : Option Endpoint := do
  let (index, label) ← Text.splitFirst ':' s
  return ⟨← trimmedIndex? index, String.ofList (Text.trim label)⟩

/-- The two endpoints that a flag gives. -/
def readConnection (raw : String) : Except FlagError (Endpoint × Endpoint) :=
  match Text.splitFirst '=' raw.toList with
  | none => .error (.malformedConnection raw)
  | some (source, target) =>
    match readEndpoint? source, readEndpoint? target with
    | some a, some b => .ok (a, b)
    | _, _ => .error (.malformedConnection raw)

/-!
## Scaffold: a composition built from flags, validated and generated

The primitives are added first, then parameters are set, then ports are connected, each in the order of the flags; the first
flag that fails ends it. The module is written only if validation finds no error.
-/

/-- The flags of a scaffold. -/
structure Request where
  name : String
  description : String
  kinds : List String
  assignments : List String
  connections : List String

/-- Why a scaffold cannot be built. -/
inductive BuildError where
  | unknownKind (tag : String) (error : LookupError)
  | flag (error : FlagError)
  | outOfRange (index count : Nat)
  | refusedValue (raw : String) (error : EditError)
  | noOutput (raw label : String)
  | noInput (raw label : String)
  | refusedConnection (raw : String) (error : ConnectError)
  deriving DecidableEq

/-- The message of an error. -/
def BuildError.message : BuildError → String
  | unknownKind tag e => "--kind " ++ tag ++ ": " ++ e.message
  | flag e => e.message
  | outOfRange index count =>
    "primitive index " ++ index.repr ++ " out of range (" ++ count.repr ++ " primitive(s) added)"
  | refusedValue raw e => "--set " ++ raw ++ ": " ++ e.message
  | noOutput raw label => "--connect " ++ raw ++ ": no output labeled '" ++ label ++ "'"
  | noInput raw label => "--connect " ++ raw ++ ": no input labeled '" ++ label ++ "'"
  | refusedConnection raw e => "--connect " ++ raw ++ ": " ++ e.message

/-- Adds the primitives, two hundred apart, after those whose names are given; answers the names of all. -/
def addKinds (now : Timestamp) : List String → List PrimitiveId → Store → Except BuildError (List PrimitiveId × Store)
  | [], ids, s => .ok (ids, s)
  | tag :: tags, ids, s =>
    match Kind.ofTag tag with
    | .error e => .error (.unknownKind tag e)
    | .ok kind =>
      let (p, s) := s.addPrimitive now kind ⟨Float.ofNat ids.length * 200, 0⟩
      addKinds now tags (ids ++ [p.id]) s

/-- The primitive at a position among those added. -/
def primitiveAt (ids : List PrimitiveId) (index : Nat) : Except BuildError PrimitiveId :=
  match ids[index]? with
  | some id => .ok id
  | none => .error (.outOfRange index ids.length)

/-- Sets the parameter that a flag names. -/
def applyAssignment (now : Timestamp) (ids : List PrimitiveId) (s : Store) (raw : String) : Except BuildError Store :=
  match readAssignment raw with
  | .error e => .error (.flag e)
  | .ok a =>
    match primitiveAt ids a.index with
    | .error e => .error e
    | .ok id =>
      match s.setParameterFromJson now id a.parameter (.string a.value) with
      | (.ok _, s) => .ok s
      | (.error e, _) => .error (.refusedValue raw e)

/-- The port that an endpoint names, on the side that `labeled?` looks at. -/
def portAt (ids : List PrimitiveId) (c : Composition) (labeled? : Primitive → String → Option Port)
    (missing : String → BuildError) (endpoint : Endpoint) : Except BuildError PortId :=
  match primitiveAt ids endpoint.index with
  | .error e => .error e
  | .ok id =>
    match (c.primitive? id).bind (labeled? · endpoint.label) with
    | some port => .ok port.id
    | none => .error (missing endpoint.label)

/-- Connects the ports that a flag names. -/
def applyConnection (now : Timestamp) (ids : List PrimitiveId) (s : Store) (raw : String) : Except BuildError Store :=
  match readConnection raw with
  | .error e => .error (.flag e)
  | .ok (a, b) =>
    match portAt ids s.composition Primitive.outputLabeled? (.noOutput raw) a with
    | .error e => .error e
    | .ok source =>
      match portAt ids s.composition Primitive.inputLabeled? (.noInput raw) b with
      | .error e => .error e
      | .ok target =>
        match s.connect now source target with
        | (.ok _, s) => .ok s
        | (.error e, _) => .error (.refusedConnection raw e)

/-- The store that the flags build. -/
def build (now : Timestamp) (request : Request) (options : Move.Options) : Except BuildError Store := do
  let s : Store := { Store.new .zero now request.name request.description with options }
  let (ids, s) ← addKinds now request.kinds [] s
  let s ← request.assignments.foldlM (applyAssignment now ids) s
  request.connections.foldlM (applyConnection now ids) s

/-- The report and the module as one JSON text. -/
def reportText (report : Report) (code : Option String) : String :=
  (Json.object [("validation", report.toJson), ("code", .ofOption .string code)]).pretty ++ "\n"

/-- The findings, one to a line. -/
def findingsText (report : Report) : String := String.join (report.issues.map fun i => i.display ++ "\n")

/-- What is said of a composition with errors. -/
def failureText (report : Report) : String :=
  "Validation failed with " ++ (report.withSeverity .error).length.repr ++ " error(s).\n"

/-- What a scaffold leaves that built a store and has its module, which is written only if validation finds no error. -/
def reportOutcome (report : Report) (code : Option String) (json : Bool) : Outcome :=
  { exitCode := if report.isValid then 0 else 2
    stdout := if json then reportText report code else code.getD ""
    stderr := (if json then "" else findingsText report) ++ if report.isValid then "" else failureText report }

/-- Builds a composition from flags and writes its module. It ends with 1 if a flag fails, and with 2 if validation finds an
error; there is no outcome where the module cannot be generated. -/
def scaffold? (now : Timestamp) (request : Request) (options : Move.Options) (json : Bool) : Option Outcome :=
  match build now request options with
  | .error e => some ⟨1, "", "Error: " ++ e.message ++ "\n"⟩
  | .ok s =>
    if s.validate.isValid then s.exportText?.map fun code => reportOutcome s.validate (some code) json
    else some (reportOutcome s.validate none json)

end DefiComposer.CommandLine
