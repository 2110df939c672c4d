import MarkdownSpans.Text.Split

/-!
# Arguments of a command

A command takes options, which are named with hyphens, and operands. `CommandForm.read` reads
arguments from the left and stops at the first one that is not allowed, or that asks for
information. What the arguments say is gathered in a value of the command's own type.
-/

namespace MarkdownSpans

/-- Why arguments are refused. -/
inductive UsageError where
  | missingCommand
  | unknownCommand (name : String)
  | unknownOption (name : String)
  /-- An option or an operand is left without a value, or has an empty one. -/
  | missingValue (name : String)
  | invalidValue (name value : String)
  /-- A value is given to an option that takes none. -/
  | unexpectedValue (name : String)
  | repeatedOption (name : String)
  | extraArgument (argument : String)
  deriving DecidableEq, Repr

/-- The text of an error. -/
def UsageError.message : UsageError → String
  | missingCommand => "a command is required"
  | unknownCommand name => "unknown command " ++ name
  | unknownOption name => "unknown option " ++ name
  | missingValue name => "a value is required for " ++ name
  | invalidValue name value => "invalid value " ++ value ++ " for " ++ name
  | unexpectedValue name => "no value is allowed for " ++ name
  | repeatedOption name => name ++ " is given more than once"
  | extraArgument argument => "unexpected argument " ++ argument

/-- What can be asked for in place of a command's work. -/
inductive Information where
  | help
  | version
  deriving DecidableEq, Repr

/-- What an option does to the value of a command. -/
inductive OptionEffect (α : Type) where
  /-- The option takes no value. -/
  | flag (set : α → α)
  /-- The option takes a value; not all values need be allowed. -/
  | valued (set? : String → α → Option α)
  | inform (information : Information)

/-- An option of a command. -/
structure CommandOption (α : Type) where
  /-- The name after two hyphens. -/
  name : String
  /-- The letter after one hyphen. -/
  letter : Option Char
  effect : OptionEffect α

/-- The arguments that a command takes. -/
structure CommandForm (α : Type) where
  options : List (CommandOption α)
  /-- The value of a command after one more operand. -/
  operand : String → α → Except UsageError α

/-- The value of a command as far as its arguments have been read, and the options among them. -/
structure ArgumentState (α : Type) where
  value : α
  given : List String := []

/-- How reading goes on after an argument. -/
inductive ArgumentStep (α : Type) where
  | proceed (state : ArgumentState α)
  /-- The next argument is the value of an option. -/
  | await (name : String) (set? : String → α → Option α) (state : ArgumentState α)
  | inform (information : Information)

/-- What the arguments of a command come to. -/
inductive ArgumentResult (α : Type) where
  | value (value : α)
  | inform (information : Information)

namespace ArgumentState

variable {α : Type}

/-- Note that an option is given, which it may be once. -/
def give (s : ArgumentState α) (name : String) : Except UsageError (ArgumentState α) :=
  if s.given.contains name then .error (.repeatedOption name)
  else .ok { s with given := name :: s.given }

/-- Give a value to an option. -/
def assign (s : ArgumentState α) (name : String) (set? : String → α → Option α) (value : String) :
    Except UsageError (ArgumentState α) :=
  if value.isEmpty then .error (.missingValue name)
  else
    match set? value s.value with
    | none => .error (.invalidValue name value)
    | some a => .ok { s with value := a }

end ArgumentState

/-- Whether an argument names options. A single hyphen is an operand. -/
def isOptionArgument (argument : String) : Bool :=
  match argument.toList with
  | '-' :: _ :: _ => true
  | _ => false

namespace CommandForm

variable {α : Type}

/-- Read an option by its name, with the value after an equals sign if there is one. -/
def readNamed (form : CommandForm α) (body : List Char) (s : ArgumentState α) :
    Except UsageError (ArgumentStep α) := do
  let name := String.ofList (body.takeWhile (· ≠ '='))
  let value? := (body.dropWhile (· ≠ '=')).tail?.map String.ofList
  match form.options.find? (·.name == name), value? with
  | none, _ => throw (.unknownOption name)
  | some option, none =>
    match option.effect with
    | .inform information => return .inform information
    | .flag set => do
      let s ← s.give name
      return .proceed { s with value := set s.value }
    | .valued set? => return .await name set? (← s.give name)
  | some option, some value =>
    match option.effect with
    | .valued set? => return .proceed (← (← s.give name).assign name set? value)
    | _ => throw (.unexpectedValue name)

/-- Read options by their letters. Letters after that of an option that takes a value are its value;
an equals sign may stand before it. -/
def readLetters (form : CommandForm α) : List Char → ArgumentState α →
    Except UsageError (ArgumentStep α)
  | [], s => return .proceed s
  | letter :: rest, s =>
    match form.options.find? (·.letter == some letter) with
    | none => throw (.unknownOption (String.singleton letter))
    | some option =>
      match option.effect with
      | .inform information => return .inform information
      | .flag set => do
        let s ← s.give option.name
        form.readLetters rest { s with value := set s.value }
      | .valued set? => do
        let s ← s.give option.name
        match rest with
        | [] => return .await option.name set? s
        | '=' :: value => return .proceed (← s.assign option.name set? (String.ofList value))
        | value => return .proceed (← s.assign option.name set? (String.ofList value))

/-- Read an argument that names options. -/
def readOptions (form : CommandForm α) (argument : String) (s : ArgumentState α) :
    Except UsageError (ArgumentStep α) :=
  match argument.toList with
  | '-' :: '-' :: body => form.readNamed body s
  | _ :: letters => form.readLetters letters s
  | [] => .ok (.proceed s)

/-- Read arguments as operands, whatever they look like. -/
def readOperands (form : CommandForm α) : List String → ArgumentState α →
    Except UsageError (ArgumentState α)
  | [], s => .ok s
  | argument :: rest, s => do
    form.readOperands rest { s with value := ← form.operand argument s.value }

/-- Read all arguments of a command. Behind two hyphens alone there are only operands. -/
def read (form : CommandForm α) : List String → ArgumentState α →
    Except UsageError (ArgumentResult α)
  | [], s => .ok (.value s.value)
  | argument :: rest, s =>
    if argument == "--" then return .value (← form.readOperands rest s).value
    else if isOptionArgument argument then do
      match ← form.readOptions argument s, rest with
      | .inform information, _ => return .inform information
      | .proceed s, rest => form.read rest s
      | .await name _ _, [] => throw (.missingValue name)
      | .await name set? s, value :: rest =>
        if isOptionArgument value then throw (.missingValue name)
        else form.read rest (← s.assign name set? value)
    else do
      form.read rest { s with value := ← form.operand argument s.value }
  termination_by arguments => arguments.length

end CommandForm

end MarkdownSpans
