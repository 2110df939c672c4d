import MarkdownSpans.Command.Arguments
import MarkdownSpans.Config.Read

/-!
# Requests

What the command line can ask for: to render markdown, to check a configuration, or to be told about
the program. `Request.ofArguments` reads a request from the arguments.
-/

namespace MarkdownSpans

/-- The forms in which rich text is written. -/
inductive OutputFormat where
  | text
  | json
  /-- The text followed by a table of its spans. -/
  | entities
  deriving DecidableEq, Repr, Inhabited

/-- A request to render markdown. -/
structure RenderRequest where
  /-- The file to read; a single hyphen or none stands for the standard input. -/
  input : Option String := none
  format : OutputFormat := .text
  /-- The configuration file to use. -/
  config : Option String := none
  overrides : Overrides := {}
  deriving DecidableEq, Repr, Inhabited

/-- What the program is asked for. -/
inductive Request where
  | inform (information : Information)
  | render (request : RenderRequest)
  | checkConfig (config : Option String)
  deriving DecidableEq, Repr

/-- The formats by name. -/
def formatChoices : List (String × OutputFormat) :=
  [("text", .text), ("json", .json), ("entities", .entities)]

/-- The option that asks for help. -/
def helpOption {α : Type} : CommandOption α := ⟨"help", some 'h', .inform .help⟩

/-- The option that asks for a log; none is kept. -/
def verboseOption {α : Type} : CommandOption α := ⟨"verbose", some 'v', .flag id⟩

/-- The arguments of `render`. -/
def renderForm : CommandForm RenderRequest where
  options :=
    [⟨"format", some 'f', .valued fun v r =>
        (formatChoices.lookup v).map fun format => { r with format }⟩,
      ⟨"config", some 'c', .valued fun v r => some { r with config := some v }⟩,
      ⟨"strip-html", none, .flag fun r =>
        { r with overrides := { r.overrides with stripAll := some true } }⟩,
      ⟨"offsets", none, .valued fun v r =>
        (unitChoices.lookup v).map fun unit =>
          { r with overrides := { r.overrides with unit := some unit } }⟩,
      ⟨"keep-fences", none, .flag fun r =>
        { r with overrides := { r.overrides with keepCodeFences := some true } }⟩,
      verboseOption, helpOption]
  operand argument r :=
    if r.input.isSome then .error (.extraArgument argument)
    else if argument.isEmpty then .error (.missingValue "input")
    else .ok { r with input := some argument }

/-- The arguments of `check-config`. -/
def checkForm : CommandForm (Option String) where
  options := [⟨"config", some 'c', .valued fun v _ => some (some v)⟩, verboseOption, helpOption]
  operand argument _ := .error (.extraArgument argument)

/-- The arguments before the name of a command. -/
def programForm : CommandForm Unit where
  options := [verboseOption, helpOption, ⟨"version", some 'V', .inform .version⟩]
  operand argument _ := .error (.unknownCommand argument)

namespace Request

/-- A request for help on a command, if one is named. -/
def ofHelpArguments : List String → Except UsageError Request
  | [] | ["render"] | ["check-config"] | ["help"] => .ok (.inform .help)
  | name :: rest =>
    if ["render", "check-config", "help"].contains name then .error (.extraArgument (rest.headD ""))
    else .error (.unknownCommand name)

/-- The request that a command and its arguments make. -/
def ofCommand (name : String) (arguments : List String) : Except UsageError Request :=
  match name with
  | "render" => do
    match ← renderForm.read arguments { value := {} } with
    | .inform information => return .inform information
    | .value request => return .render request
  | "check-config" => do
    match ← checkForm.read arguments { value := none } with
    | .inform information => return .inform information
    | .value config => return .checkConfig config
  | "help" => ofHelpArguments arguments
  | _ => throw (.unknownCommand name)

/-- The request that arguments make after the options before them. -/
def ofArgumentsAfter (s : ArgumentState Unit) : List String → Except UsageError Request
  | [] => throw .missingCommand
  | argument :: rest => do
    if argument == "--" then throw .missingCommand
    if !isOptionArgument argument then return ← ofCommand argument rest
    match ← programForm.readOptions argument s with
    | .inform information => return .inform information
    | .proceed s => ofArgumentsAfter s rest
    | .await name _ _ => throw (.missingValue name)

/-- The request that arguments make. -/
def ofArguments (arguments : List String) : Except UsageError Request :=
  ofArgumentsAfter { value := () } arguments

end Request

end MarkdownSpans
