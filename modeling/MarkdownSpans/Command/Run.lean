import MarkdownSpans.Command.Request
import MarkdownSpans.Config.Load
import MarkdownSpans.Config.Rendering
import MarkdownSpans.Config.Settings
import MarkdownSpans.Output.Json

/-!
# Running requests

`runArguments` answers the arguments of the program by what it writes and the code it exits with.
Results go to the output, and everything for the person at the terminal to the diagnostics.
-/

namespace MarkdownSpans

/-- The surroundings that the program runs in. -/
structure Surroundings (m : Type → Type) where
  files : FileAccess m
  /-- The directory in which the search for a configuration starts. -/
  directory : String
  /-- The text of the standard input. -/
  input : m (Except FileError String)

/-- Why a request fails. -/
inductive RequestError where
  | config (error : ConfigError)
  | input (error : FileError)
  | render (error : RenderError)
  deriving DecidableEq, Repr

/-- The text of an error. -/
def RequestError.message : RequestError → String
  | config error => error.message
  | input error => error.message
  | render error => error.message

/-- What the program writes and the code it exits with. -/
structure Report where
  exitCode : Nat := 0
  output : String := ""
  diagnostics : String := ""
  deriving DecidableEq, Repr, Inhabited

namespace Report

/-- The report of a request that failed. -/
def failed (error : RequestError) : Report :=
  { exitCode := 1, diagnostics := "Error: " ++ error.message ++ "\n" }

/-- The report of arguments that were refused. -/
def refused (error : UsageError) : Report :=
  { exitCode := 2, diagnostics := "error: " ++ error.message ++ "\n" }

end Report

/-- The name and the version of the program. -/
def programVersion : String := "tgmd 0.1.0"

/-- What the program tells about itself. -/
def Information.text : Information → String
  | version => programVersion ++ "\n"
  | help =>
    "\n".intercalate
      ["Usage: tgmd [-v] COMMAND", "",
        "render [-f text|json|entities] [-c FILE] [--strip-html] [--offsets utf16|utf8|chars]",
        "       [--keep-fences] [INPUT]",
        "    Render markdown into text and spans.",
        "check-config [-c FILE]",
        "    Check the configuration and list its settings.",
        ""]

/-- Rich text in a form. -/
def OutputFormat.write : OutputFormat → RichText → String
  | text, r => r.text
  | json, r => r.json ++ "\n"
  | entities, r => r.table

/-- The lines that tell of a configuration that is in order. -/
def Config.listing (c : Config) : List String :=
  let source :=
    match c.path with
    | some path => path
    | none => "defaults (no " ++ configFileName ++ " found)"
  ["Configuration: " ++ source] ++ c.settings.map (fun (name, value) => name ++ " = " ++ value) ++
    ["Configuration is valid"]

section Run

variable {m : Type → Type} [Monad m]

/-- The text to render. -/
def RenderRequest.readInput (r : RenderRequest) (s : Surroundings m) :
    m (Except FileError String) :=
  match r.input with
  | none | some "-" => s.input
  | some path => s.files.read path

/-- The rich text of the input under a configuration, written in the form that is asked for. -/
def RenderRequest.answer (r : RenderRequest) (c : Config) (source : Except FileError String) :
    Report :=
  match source with
  | .error error => .failed (.input error)
  | .ok source =>
    match c.renderMarkdown source with
    | .error error => .failed (.render error)
    | .ok text => { output := r.format.write text }

/-- Render markdown. The input is read when the configuration has been loaded. -/
def RenderRequest.run (r : RenderRequest) (s : Surroundings m) : m Report := do
  match ← Config.load s.files s.directory r.config (some r.overrides) with
  | .error error => return .failed (.config error)
  | .ok c => return r.answer c (← r.readInput s)

/-- Check a configuration and list its settings. -/
def runCheck (config : Option String) (s : Surroundings m) : m Report := do
  match ← Config.load s.files s.directory config none with
  | .error error => return .failed (.config error)
  | .ok c => return { diagnostics := String.join (c.listing.map (· ++ "\n")) }

/-- Run a request. -/
def Request.run (s : Surroundings m) : Request → m Report
  | inform information => return { output := information.text }
  | render request => request.run s
  | checkConfig config => runCheck config s

/-- Run the request that arguments make. -/
def runArguments (arguments : List String) (s : Surroundings m) : m Report :=
  match Request.ofArguments arguments with
  | .error error => return .refused error
  | .ok request => request.run s

end Run

end MarkdownSpans
