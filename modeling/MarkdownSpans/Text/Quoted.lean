import MarkdownSpans.Text.Hex
import MarkdownSpans.Text.Printable

/-!
# Quoted texts

`quoteText` writes a text so that all of it can be seen: between quotes, with escapes for quotes,
backslashes and whatever is not printable.
-/

namespace MarkdownSpans

/-- A character between the quotes. -/
def quoteChar (c : Char) : List Char :=
  if c == '"' then ['\\', '"']
  else if c == '\\' then ['\\', '\\']
  else if c == '\n' then ['\\', 'n']
  else if c == '\r' then ['\\', 'r']
  else if c == '\t' then ['\\', 't']
  else if c == '\x00' then ['\\', '0']
  else if isPrintable c then [c]
  else ['\\', 'u', '\x7b'] ++ hexDigits c.toNat ++ ['\x7d']

/-- A text in quotes. -/
def quoteText (text : String) : String :=
  "\"" ++ String.ofList (text.toList.flatMap quoteChar) ++ "\""

/-- A list of texts in quotes, in brackets. -/
def quoteTexts (texts : List String) : String :=
  "[" ++ ", ".intercalate (texts.map quoteText) ++ "]"

end MarkdownSpans
