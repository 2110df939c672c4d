import MarkdownSpans.Text.Hex

/-!
# Quoted texts of TOML

The four ways to write a text: in double quotes, with escapes, or in single quotes, as it stands,
each on one line or between three quotes over several. The scans give the text and what follows it.
-/

namespace MarkdownSpans.Toml

/-- Whether a character may stand in a line as it is. -/
def isPlainChar (c : Char) : Bool := c == '\t' || (0x20 ≤ c.toNat && c.toNat ≠ 0x7f)

/-- Whether a character is a space or a tab. -/
def isLineSpace (c : Char) : Bool := c == ' ' || c == '\t'

/-- A text behind a line end, if it starts with one. -/
def dropLineEnd? : List Char → Option (List Char)
  | '\n' :: rest => some rest
  | '\r' :: '\n' :: rest => some rest
  | _ => none

/-- The character with the number that so many hexadecimal digits stand for, and what follows
them. -/
def codePoint? (count : Nat) (cs : List Char) : Option (Char × List Char) :=
  let digits := cs.take count
  let n := hexValue digits
  if digits.length == count && digits.all isHexDigit && n.isValidChar then
    some (Char.ofNat n, cs.drop count)
  else
    none

/-- The character of an escape from behind its backslash, and what follows it. -/
def escaped? : List Char → Option (Char × List Char)
  | 'b' :: rest => some ('\x08', rest)
  | 't' :: rest => some ('\t', rest)
  | 'n' :: rest => some ('\n', rest)
  | 'f' :: rest => some ('\x0c', rest)
  | 'r' :: rest => some ('\r', rest)
  | 'e' :: rest => some ('\x1b', rest)
  | '"' :: rest => some ('"', rest)
  | '\\' :: rest => some ('\\', rest)
  | 'x' :: rest => codePoint? 2 rest
  | 'u' :: rest => codePoint? 4 rest
  | 'U' :: rest => codePoint? 8 rest
  | _ => none

/-- What follows a line end behind a backslash, and the white space and line ends after it. -/
def dropFoldedLines? (cs : List Char) : Option (List Char) :=
  (dropLineEnd? (cs.dropWhile isLineSpace)).map
    (·.dropWhile fun c => isLineSpace c || c == '\n' || c == '\r')

/-- The text in quotes on one line, from behind the first quote. -/
def lineFrom? (quote : Char) : Nat → List Char → List Char → Option (List Char × List Char)
  | 0, _, _ => none
  | _ + 1, _, [] => none
  | fuel + 1, reversed, c :: rest =>
    if c == quote then
      some (reversed.reverse, rest)
    else if c == '\\' && quote == '"' then
      (escaped? rest).bind fun (e, rest) => lineFrom? quote fuel (e :: reversed) rest
    else if isPlainChar c then
      lineFrom? quote fuel (c :: reversed) rest
    else
      none

/-- The text between three quotes, from behind the first three. Up to two quotes may stand before
the last three. -/
def linesFrom? (quote : Char) : Nat → List Char → List Char → Option (List Char × List Char)
  | 0, _, _ => none
  | _ + 1, _, [] => none
  | fuel + 1, reversed, c :: rest =>
    if c == quote then
      let count := ((c :: rest).takeWhile (· == quote)).length
      if 3 ≤ count then
        let kept := min (count - 3) 2
        some ((List.replicate kept quote ++ reversed).reverse, (c :: rest).drop (kept + 3))
      else
        linesFrom? quote fuel (List.replicate count quote ++ reversed) ((c :: rest).drop count)
    else if c == '\\' && quote == '"' then
      match dropFoldedLines? rest with
      | some rest => linesFrom? quote fuel reversed rest
      | none => (escaped? rest).bind fun (e, rest) => linesFrom? quote fuel (e :: reversed) rest
    else if isPlainChar c then
      linesFrom? quote fuel (c :: reversed) rest
    else
      (dropLineEnd? (c :: rest)).bind fun rest => linesFrom? quote fuel ('\n' :: reversed) rest

/-- The text in quotes on one line that a text starts with, and what follows it. -/
def quotedLine? : List Char → Option (String × List Char)
  | [] => none
  | quote :: rest =>
    if quote == '"' || quote == '\'' then
      (lineFrom? quote (rest.length + 1) [] rest).map fun (text, rest) => (String.ofList text, rest)
    else
      none

/-- The quoted text that a text starts with, and what follows it. -/
def quotedText? (cs : List Char) : Option (String × List Char) :=
  match cs with
  | a :: b :: c :: rest =>
    if a == b && b == c && (a == '"' || a == '\'') then
      let inner := (dropLineEnd? rest).getD rest
      (linesFrom? a (inner.length + 1) [] inner).map fun (text, rest) => (String.ofList text, rest)
    else
      quotedLine? cs
  | _ => quotedLine? cs

end MarkdownSpans.Toml
