import MarkdownSpans.Output.RichText
import MarkdownSpans.Text.Hex

/-!
# Rich text as JSON

`JsonValue.pretty` writes a value over several lines, two spaces a level; `RichText.json` is the
JSON form of rich text, with the fields in a fixed order and those that are not set left out.
-/

namespace MarkdownSpans

/-- The JSON values that rich text consists of. -/
inductive JsonValue where
  | text (value : String)
  | number (value : Nat)
  | list (items : List JsonValue)
  | record (fields : List (String × JsonValue))

namespace JsonValue

/-- A character inside quotes. Quotes, backslashes and control characters are escaped. -/
def escapeChar (c : Char) : List Char :=
  if c == '"' then ['\\', '"']
  else if c == '\\' then ['\\', '\\']
  else if c == '\x08' then ['\\', 'b']
  else if c == '\x0c' then ['\\', 'f']
  else if c == '\n' then ['\\', 'n']
  else if c == '\r' then ['\\', 'r']
  else if c == '\t' then ['\\', 't']
  else if c.toNat < 0x20 then
    ['\\', 'u', '0', '0', hexDigit (c.toNat / 16), hexDigit (c.toNat % 16)]
  else [c]

/-- A text in quotes. -/
def quoted (text : String) : String :=
  "\"" ++ String.ofList (text.toList.flatMap escapeChar) ++ "\""

/-- A new line at a level. -/
def newLine (level : Nat) : String :=
  String.ofList ('\n' :: List.replicate (2 * level) ' ')

mutual

/-- The text of a value that stands at a level. -/
def pretty (level : Nat) : JsonValue → String
  | text value => quoted value
  | number value => toString value
  | list [] => "[]"
  | list items => "[" ++ prettyItems (level + 1) items ++ newLine level ++ "]"
  | record [] => "\x7b\x7d"
  | record fields => "\x7b" ++ prettyFields (level + 1) fields ++ newLine level ++ "\x7d"

/-- The items of a list, each on a line of its own. -/
def prettyItems (level : Nat) : List JsonValue → String
  | [] => ""
  | item :: rest =>
    newLine level ++ pretty level item ++ (if rest.isEmpty then "" else ",") ++
      prettyItems level rest

/-- The fields of a record, each on a line of its own. -/
def prettyFields (level : Nat) : List (String × JsonValue) → String
  | [] => ""
  | (name, value) :: rest =>
    newLine level ++ quoted name ++ ": " ++ pretty level value ++
      (if rest.isEmpty then "" else ",") ++ prettyFields level rest

end

end JsonValue

/-- The name of a unit. -/
def OffsetUnit.name : OffsetUnit → String
  | utf16 => "utf16"
  | utf8 => "utf8"
  | chars => "chars"

/-- A span as a record; a target or a language that is not set is left out. -/
def Span.toJson (s : Span) : JsonValue :=
  .record <|
    [("offset", .number s.offset), ("length", .number s.length),
      ("type", .text s.style.kind.name)] ++
    (s.style.url.toList.map fun url => ("url", .text url)) ++
    (s.style.language.toList.map fun language => ("language", .text language))

/-- Rich text as JSON over several lines. -/
def RichText.json (r : RichText) : String :=
  JsonValue.pretty 0 <| .record
    [("text", .text r.text), ("entities", .list (r.spans.map Span.toJson)),
      ("offset_encoding", .text r.unit.name)]

end MarkdownSpans
