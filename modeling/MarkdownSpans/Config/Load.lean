import MarkdownSpans.Config.Read
import MarkdownSpans.Files.Access
import MarkdownSpans.Files.Path

/-!
# Loading configurations

A configuration is read from the file that is asked for, or else from the nearest file named
`configFileName` in a directory or above it; without either it is the default. Its settings are
checked when they have been read and again when some of them have been replaced.
-/

namespace MarkdownSpans

/-- The name of the files that are searched for. -/
def configFileName : String := "tgmd.toml"

/-- Why a configuration cannot be loaded. -/
inductive ConfigError where
  /-- The file that is asked for is not there. -/
  | notFound (path : String)
  | unreadable (error : FileError)
  /-- The file is no TOML document, or a setting has a value of another type. -/
  | malformed
  | invalid (fault : SettingFault)
  deriving DecidableEq, Repr

/-- The text of an error. -/
def ConfigError.message : ConfigError → String
  | notFound path => "Configuration file not found: " ++ path
  | unreadable error => "I/O error: " ++ error.message
  | malformed => "TOML parse error: the file does not describe a configuration"
  | invalid fault => "Configuration error: " ++ fault.message

namespace Config

/-- A configuration whose settings are in their bounds. -/
def checked (c : Config) : Except ConfigError Config :=
  match c.fault? with
  | some fault => .error (.invalid fault)
  | none => .ok c

/-- The configuration that the text of a file describes. -/
def ofFile (path text : String) : Except ConfigError Config :=
  match read? text with
  | none => .error .malformed
  | some c => { c with path := some path }.checked

/-- A configuration with the settings that are given anew, if any are. -/
def adjusted (c : Config) : Option Overrides → Except ConfigError Config
  | none => .ok c
  | some overrides => (c.withOverrides overrides).checked

section Load

variable {m : Type → Type} [Monad m]

/-- The configuration of a file. -/
def readFile (files : FileAccess m) (path : String) : m (Except ConfigError Config) := do
  match ← files.read path with
  | .error error => return .error (.unreadable error)
  | .ok text => return ofFile path text

/-- The first of some paths at which there is a file. -/
def firstFile? (files : FileAccess m) : List String → m (Option String)
  | [] => return none
  | path :: rest => do if ← files.isFile path then return some path else firstFile? files rest

/-- The nearest configuration file above a directory. -/
def discover? (files : FileAccess m) (start : String) : m (Option String) :=
  firstFile? files ((Path.ancestors start).map (Path.join · configFileName))

/-- The configuration of the file that is asked for, or else of the nearest one, or the default. -/
def find (files : FileAccess m) (start : String) (path : Option String) :
    m (Except ConfigError Config) := do
  match path with
  | some path =>
    if ← files.isPresent path then readFile files path else return .error (.notFound path)
  | none =>
    match ← discover? files start with
    | some path => readFile files path
    | none => return .ok {}

/-- The configuration for a run that starts in a directory. -/
def load (files : FileAccess m) (start : String) (path : Option String)
    (overrides : Option Overrides) : m (Except ConfigError Config) := do
  return (← find files start path).bind (·.adjusted overrides)

end Load

end Config

end MarkdownSpans
