import MarkdownSpans.Text.Line
import MarkdownSpans.Text.Space
import MarkdownSpans.Text.Unit

/-!
# Positions in a source text

Positions are byte offsets into a text given by its characters. Every look at the text refuses a
position past its end or inside a character, so that a wrong position shows as `none`.
-/

namespace MarkdownSpans

/-- A range of byte positions. -/
structure ByteRange where
  start : Nat
  stop : Nat
  deriving DecidableEq, Repr, Inhabited

/-- The number of bytes of a list of characters. -/
def byteLength (cs : List Char) : Nat := OffsetUnit.utf8.measureChars cs

/-- Where a line of a source ends. -/
structure LineEnd where
  /-- The position of the terminator. -/
  contentStop : Nat
  newline : Newline
  /-- The position after the terminator. -/
  stop : Nat
  deriving DecidableEq, Repr

/-- The terminator at the start of a text. -/
def leadingNewline : List Char → Newline
  | '\r' :: '\n' :: _ => .crlf
  | '\r' :: _ => .cr
  | '\n' :: _ => .lf
  | _ => .absent

/-- The start of the line that holds a position. -/
def lineStart? (source : List Char) (pos : Nat) : Option Nat :=
  (takeBytes source pos).map fun before =>
    pos - byteLength (takeRightWhile (!isLineEnd ·) before)

/-- The end of the line that holds a position. -/
def lineEnd? (source : List Char) (pos : Nat) : Option LineEnd :=
  (dropBytes source pos).map fun rest =>
    let content := rest.takeWhile (!isLineEnd ·)
    let newline := leadingNewline (rest.dropWhile (!isLineEnd ·))
    let contentStop := pos + byteLength content
    ⟨contentStop, newline, contentStop + newline.chars.length⟩

/-- The end of the last line that a range reaches, terminators at its end left aside. -/
def blockEnd? (source : List Char) (range : ByteRange) : Option LineEnd :=
  (sliceChars source range.start range.stop).bind fun content =>
    lineEnd? source (range.start + byteLength (dropRightWhile isLineEnd content))

/-- Whether two characters stand side by side in a text. -/
def hasPair (a b : Char) : List Char → Bool
  | x :: y :: rest => (x == a && y == b) || hasPair a b (y :: rest)
  | _ => false

/-- The terminator inside the text of a line break; a line feed if there is none. -/
def breakNewline (raw : List Char) : Newline :=
  if hasPair '\r' '\n' raw then .crlf
  else if raw.contains '\n' then .lf
  else if raw.contains '\r' then .cr
  else .lf

end MarkdownSpans
