import MarkdownSpans.Config.Basic
import MarkdownSpans.Output.Json
import MarkdownSpans.Text.Decimal
import MarkdownSpans.Toml.Document

/-!
# Reading configurations

A configuration file is a TOML document with the sections `render`, `parser` and `markup`. A section
or a setting that is left out has its default, and names that are not known are passed over. A
section may also be a list of its settings in their order.
-/

namespace MarkdownSpans

/-! ### Values of settings -/

namespace TomlValue

/-- The value of a switch. -/
def toBool? : TomlValue → Option Bool
  | boolean value => some value
  | _ => none

/-- The value of a count of at most 64 bits. -/
def toCount? : TomlValue → Option Nat
  | integer (.ofNat n) => if n ≤ maxWord then some n else none
  | _ => none

/-- The value of a text. -/
def toText? : TomlValue → Option String
  | text value => some value
  | _ => none

/-- The value of a list of texts. -/
def toTexts? : TomlValue → Option (List String)
  | list items => items.mapM toText?
  | _ => none

/-- The name that a value of a choice is given by: a text, or a table whose only key it is and in
which nothing stands under it. -/
def toName? : TomlValue → Option String
  | text name => some name
  | table [(name, table [])] => some name
  | table [(name, list [])] => some name
  | _ => none

/-- The value of a choice among named values. -/
def toChoice? {α : Type} (choices : List (String × α)) (v : TomlValue) : Option α :=
  v.toName?.bind fun name => choices.lookup name

end TomlValue

/-- The units by name. -/
def unitChoices : List (String × OffsetUnit) :=
  [OffsetUnit.utf16, .utf8, .chars].map fun unit => (unit.name, unit)

/-- The policies by name. -/
def policyChoices : List (String × UnknownNodePolicy) := [("error", .error), ("skip", .skip)]

/-- The line terminators by name. -/
def newlineChoices : List (String × Newline) :=
  [("none", .absent), ("lf", .lf), ("crlf", .crlf), ("cr", .cr)]

/-! ### Sections -/

/-- A setting of a section: its name and how its value changes what the section describes. -/
structure SettingReader (α : Type) where
  name : String
  read? : TomlValue → α → Option α

namespace SettingReader

/-- Settings in the order of a list. -/
def readList? {α : Type} : List (SettingReader α) → List TomlValue → α → Option α
  | reader :: readers, value :: values, a => do readList? readers values (← reader.read? value a)
  | _, _, a => some a

/-- Settings by name. -/
def readTable? {α : Type} (readers : List (SettingReader α)) :
    List (String × TomlValue) → α → Option α
  | [], a => some a
  | (name, value) :: entries, a => do
    let a ← match readers.find? (·.name == name) with
      | some reader => reader.read? value a
      | none => some a
    readTable? readers entries a

/-- A section. A moment has no settings that are known. -/
def readSection? {α : Type} (readers : List (SettingReader α)) : TomlValue → α → Option α
  | .table entries, a => readTable? readers entries a
  | .list values, a => readList? readers values a
  | .moment _, a => some a
  | _, _ => none

/-- A section as a setting of what it is a part of. -/
def ofSection {α β : Type} (name : String) (readers : List (SettingReader α)) (get : β → α)
    (set : α → β → β) : SettingReader β :=
  ⟨name, fun value b => (readSection? readers value (get b)).map (set · b)⟩

end SettingReader

/-- The settings of the section `render`. -/
def renderReaders : List (SettingReader RenderOptions) :=
  [⟨"offset_encoding", fun v o => return { o with unit := ← v.toChoice? unitChoices }⟩,
    ⟨"max_depth", fun v o => return { o with maxDepth := ← v.toCount? }⟩,
    ⟨"unknown_nodes", fun v o => return { o with unknownNodes := ← v.toChoice? policyChoices }⟩,
    ⟨"newline", fun v o => return { o with newline := ← v.toChoice? newlineChoices }⟩,
    ⟨"keep_code_fences", fun v o => return { o with keepCodeFences := ← v.toBool? }⟩]

/-- The settings of the section `parser`. -/
def parserReaders : List (SettingReader ParseOptions) :=
  [⟨"strikethrough", fun v o => return { o with strikethrough := ← v.toBool? }⟩,
    ⟨"emoji", fun v o => return { o with emoji := ← v.toBool? }⟩,
    ⟨"max_depth", fun v o => return { o with maxDepth := ← v.toCount? }⟩]

/-- The settings of the section `markup`. -/
def markupReaders : List (SettingReader Config) :=
  [⟨"strip_all", fun v c => return { c with stripAll := ← v.toBool? }⟩,
    ⟨"strip_tags", fun v c => return { c with stripTags := ← v.toTexts? }⟩]

/-- The sections of a configuration. -/
def sectionReaders : List (SettingReader Config) :=
  [.ofSection "render" renderReaders (·.render) fun o c => { c with render := o },
    .ofSection "parser" parserReaders (·.parser) fun o c => { c with parser := o },
    .ofSection "markup" markupReaders id fun o _ => o]

/-- The configuration that a TOML document describes. -/
def Config.read? (text : String) : Option Config := do
  SettingReader.readTable? sectionReaders (← TomlValue.readDocument? text) {}

end MarkdownSpans
