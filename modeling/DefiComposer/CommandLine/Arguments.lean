import DefiComposer.CommandLine.Commands

/-!
# Arguments: the words of a command line

A command is `catalog` or `scaffold`, followed by options. An option with a value is written `--name=value`, `--name value`,
`-n value`, `-n=value` or `-nvalue`; the options `--kind`, `--set` and `--connect` may be repeated.
-/

namespace DefiComposer.CommandLine

/-- A command with its options. -/
inductive Command where
  | catalog (search category : Option String) (json : Bool)
  | scaffold (request : Request) (address : Option String) (includeWiring json : Bool)

/-- An option of a command: its name, its letter, and whether it takes a value. -/
structure OptionSpec where
  name : String
  letter : Option Char
  takesValue : Bool

/-- An option as it was given. -/
structure GivenOption where
  name : String
  value : String

/-- The options of `catalog`. -/
def catalogOptions : List OptionSpec :=
  [⟨"search", some 's', true⟩, ⟨"category", some 'c', true⟩, ⟨"json", none, false⟩]

/-- The options of `scaffold`. -/
def scaffoldOptions : List OptionSpec :=
  [ ⟨"name", some 'n', true⟩, ⟨"description", some 'd', true⟩, ⟨"kind", some 'k', true⟩, ⟨"set", some 's', true⟩,
    ⟨"connect", none, true⟩, ⟨"address", some 'a', true⟩, ⟨"no-wiring", none, false⟩, ⟨"json", none, false⟩ ]

/-- The option that a word names, with the value that the word carries, if any. -/
def readOption? (specs : List OptionSpec) (word : String) : Option (OptionSpec × Option String) :=
  match word.toList with
  | '-' :: '-' :: rest =>
    let (name, value) := match Text.splitFirst '=' rest with
      | some (name, value) => (name, some (String.ofList value))
      | none => (rest, none)
    (specs.find? (·.name.toList = name)).map fun spec => (spec, value)
  | '-' :: letter :: rest =>
    (specs.find? (·.letter = some letter)).map fun spec =>
      (spec, match rest with
        | [] => none
        | '=' :: value => some (String.ofList value)
        | value => some (String.ofList value))
  | _ => none

/-- The options that the words give, in order. -/
def readOptions (specs : List OptionSpec) : List String → Except String (List GivenOption)
  | [] => .ok []
  | word :: words =>
    match readOption? specs word with
    | none => .error ("unexpected argument '" ++ word ++ "'")
    | some (spec, some value) =>
      if spec.takesValue then (readOptions specs words).map (⟨spec.name, value⟩ :: ·)
      else .error ("unexpected value for '--" ++ spec.name ++ "'")
    | some (spec, none) =>
      if spec.takesValue then
        match words with
        | [] => .error ("a value is required for '--" ++ spec.name ++ "'")
        | value :: words => (readOptions specs words).map (⟨spec.name, value⟩ :: ·)
      else (readOptions specs words).map (⟨spec.name, ""⟩ :: ·)

/-- The values given for an option. -/
def valuesOf (given : List GivenOption) (name : String) : List String :=
  (given.filter (·.name == name)).map (·.value)

/-- Whether an option was given. -/
def isGiven (given : List GivenOption) (name : String) : Bool := given.any (·.name == name)

/-- The command that the words give. -/
def Command.read : List String → Except String Command
  | "catalog" :: words => do
    let given ← readOptions catalogOptions words
    return .catalog (valuesOf given "search").head? (valuesOf given "category").head? (isGiven given "json")
  | "scaffold" :: words => do
    let given ← readOptions scaffoldOptions words
    match (valuesOf given "name").head? with
    | none => .error "the option '--name' is required"
    | some name =>
      let request : Request :=
        { name
          description := (valuesOf given "description").head?.getD ""
          kinds := valuesOf given "kind"
          assignments := valuesOf given "set"
          connections := valuesOf given "connect" }
      return .scaffold request (valuesOf given "address").head? (!isGiven given "no-wiring") (isGiven given "json")
  | [] => .error "a command is required: catalog or scaffold"
  | word :: _ => .error ("unrecognized command '" ++ word ++ "'")

/-- What a command leaves, if it comes to an end. An address that is not given is taken from `defaultAddress`. -/
def Command.run? (now : Timestamp) (defaultAddress : Option String) : Command → Option Outcome
  | catalog search category json => some (listing search category json)
  | scaffold request address includeWiring json =>
    CommandLine.scaffold? now request ⟨address.or defaultAddress, includeWiring⟩ json

end DefiComposer.CommandLine
