import DefiComposer.Catalog
import DefiComposer.Composition
import DefiComposer.Primitive

/-!
# Validation: what is wrong with a composition

First the findings and the report that holds them, then how the findings on a composition are gathered.
-/

namespace DefiComposer

/-!
## Issues: one finding of a validation, and the report that holds them

A finding is data and no failure. A report is valid exactly when none of its findings is an error.
-/

/-- How serious a finding is. Only an error makes a composition invalid. -/
inductive Severity where
  | error
  | warning
  | info
  deriving DecidableEq

namespace Severity

/-- All severities. -/
def all : List Severity := [error, warning, info]

/-- The name of a severity. -/
def tag : Severity → String
  | error => "error"
  | warning => "warning"
  | info => "info"

/-- The severity of a name. -/
def ofTag? (tag : String) : Option Severity := all.find? (·.tag == tag)

end Severity

/-- What a finding is about. -/
inductive IssueKind where
  /-- A parameter without a value. -/
  | missingParameter
  /-- A value that breaks a rule of its parameter. -/
  | constraintViolated
  /-- A parameter that the kind does not declare. -/
  | unknownParameter
  /-- A source that is no output port of any primitive. -/
  | danglingSource
  /-- A target that is no input port of any primitive. -/
  | danglingTarget
  /-- Ports whose tags are not equal. -/
  | resourceTypeMismatch
  /-- Ports of one and the same primitive. -/
  | selfLoop
  /-- A primitive without connections. -/
  | orphanedPrimitive
  deriving DecidableEq

namespace IssueKind

/-- All kinds of findings. -/
def all : List IssueKind :=
  [missingParameter, constraintViolated, unknownParameter, danglingSource, danglingTarget, resourceTypeMismatch, selfLoop,
    orphanedPrimitive]

/-- The name of a kind of finding. -/
def tag : IssueKind → String
  | missingParameter => "missingParameter"
  | constraintViolated => "constraintViolated"
  | unknownParameter => "unknownParameter"
  | danglingSource => "danglingSource"
  | danglingTarget => "danglingTarget"
  | resourceTypeMismatch => "resourceTypeMismatch"
  | selfLoop => "selfLoop"
  | orphanedPrimitive => "orphanedPrimitive"

/-- The kind of finding of a name. -/
def ofTag? (tag : String) : Option IssueKind := all.find? (·.tag == tag)

end IssueKind

/-- Where a finding was made. -/
structure Location where
  primitive : Option PrimitiveId := none
  connection : Option ConnectionId := none
  parameter : Option String := none
  deriving DecidableEq

/-- A finding. -/
structure Issue where
  severity : Severity
  kind : IssueKind
  message : String
  location : Option Location
  deriving DecidableEq

/-- The finding as a person reads it. -/
def Issue.display (i : Issue) : String := i.severity.tag ++ ": " ++ i.message

/-- The findings of a validation, in the order in which they were made. -/
structure Report where
  issues : List Issue
  deriving DecidableEq

namespace Report

/-- Whether no finding is an error. -/
def isValid (r : Report) : Bool := !r.issues.any (·.severity = .error)

/-- The findings of a severity. -/
def withSeverity (r : Report) (severity : Severity) : List Issue := r.issues.filter (·.severity = severity)

/-- The findings of a kind. -/
def ofKind (r : Report) (kind : IssueKind) : List Issue := r.issues.filter (·.kind = kind)

end Report

/-!
## Findings: what there is to find on the parts of a composition

The findings come in three groups: those on the parameters of each primitive, record by record; those on each connection;
and the primitives without a connection. The tags of connected ports have to be equal here, which is stricter than the rule
under which ports may be connected.
-/

namespace Primitive

/-- The finding on one record of a parameter, if any: a value that is missing, a parameter that the kind does not declare,
or a value that breaks a rule. -/
def parameterIssue? (p : Primitive) (parameter : String) (value : ParameterValue) : Option Issue :=
  let location : Option Location := some { primitive := some p.id, parameter := some parameter }
  if value.isEmpty then
    some ⟨.error, .missingParameter, "Parameter \"" ++ parameter ++ "\" is required but not set", location⟩
  else
    match p.kind.template.parameter? parameter with
    | none =>
      some ⟨.info, .unknownParameter,
        "Parameter \"" ++ parameter ++ "\" is not defined for " ++ p.kind.tag ++ " and will be ignored", location⟩
    | some definition =>
      match definition.check value with
      | .ok () => none
      | .error violation =>
        some ⟨.warning, .constraintViolated, "Primitive \"" ++ p.label ++ "\": " ++ violation.message, location⟩

/-- The findings on the parameters of a primitive. -/
def parameterIssues (p : Primitive) : List Issue :=
  p.parameters.entries.filterMap fun record => p.parameterIssue? record.1 record.2

end Primitive

namespace Composition

/-- The finding on two ports with different tags. -/
def mismatchIssue (location : Option Location) (source target : Port) : Issue :=
  ⟨.error, .resourceTypeMismatch,
    "Resource type mismatch: \"" ++ source.resourceType ++ "\" cannot connect to \"" ++ target.resourceType ++ "\"",
    location⟩

/-- The label of the primitive under a name, empty if there is none. -/
def labelOf (c : Composition) (id : PrimitiveId) : String :=
  match c.primitive? id with
  | some p => p.label
  | none => ""

/-- The findings on two ports that a connection joins. -/
def joinIssues (c : Composition) (location : Option Location) (source target : Port) : List Issue :=
  (if source.resourceType = target.resourceType then [] else [mismatchIssue location source target]) ++
    if source.owner = target.owner then
      [⟨.warning, .selfLoop, "Self-connection detected on primitive \"" ++ c.labelOf source.owner ++ "\"", location⟩]
    else []

/-- The findings on a connection. -/
def connectionIssues (c : Composition) (k : Connection) : List Issue :=
  let location : Option Location := some { connection := some k.id }
  let noSource : Issue := ⟨.error, .danglingSource, "Connection source port not found", location⟩
  let noTarget : Issue := ⟨.error, .danglingTarget, "Connection target port not found", location⟩
  match c.output? k.source, c.input? k.target with
  | some source, some target => c.joinIssues location source target
  | none, some _ => [noSource]
  | some _, none => [noTarget]
  | none, none => [noSource, noTarget]

/-- The finding on a primitive without connections. -/
def orphanIssue? (c : Composition) (p : Primitive) : Option Issue :=
  if (c.incident p.id).isEmpty then
    some ⟨.warning, .orphanedPrimitive, "Primitive \"" ++ p.label ++ "\" is not connected to any other primitive",
      some { primitive := some p.id }⟩
  else none

/-- All findings on a composition. -/
def validate (c : Composition) : Report :=
  ⟨c.primitives.values.flatMap (·.parameterIssues) ++ c.connections.values.flatMap c.connectionIssues ++
    c.primitives.values.filterMap c.orphanIssue?⟩

end Composition

end DefiComposer
