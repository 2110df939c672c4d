/-!
# TOML values
-/

namespace MarkdownSpans

/-- A value of a TOML document. -/
inductive TomlValue where
  | text (value : String)
  | integer (value : Int)
  | boolean (value : Bool)
  /-- A number that is no integer, as it is written. -/
  | float (literal : String)
  /-- A date, a time or both, as it is written. -/
  | moment (literal : String)
  | list (items : List TomlValue)
  | table (entries : List (String × TomlValue))
  deriving Inhabited

end MarkdownSpans
