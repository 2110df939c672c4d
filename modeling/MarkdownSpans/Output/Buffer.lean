import MarkdownSpans.Text.Line
import MarkdownSpans.Text.Unit
import MarkdownSpans.Output.Indent

/-!
# The output buffer

Text is only ever appended. Line leads are not written when a line ends but by the first write
after it, so that a container left right after a line end leaves no lead behind. `length` keeps
the size of the text in the unit of the pass.
-/

namespace MarkdownSpans

/-- The text written so far and what the next write has to know. -/
structure Buffer where
  text : String
  /-- The size of `text` in `unit`. -/
  length : Nat
  unit : OffsetUnit
  /-- The terminator of lines that recorded none. -/
  newline : Newline
  /-- Whether the next write starts a line. -/
  atLineStart : Bool
  /-- The leads of the open containers, outermost first. -/
  indents : List Indent
  deriving DecidableEq, Repr

namespace Buffer

/-- An empty buffer at the start of a line. -/
def empty (unit : OffsetUnit) (newline : Newline) : Buffer :=
  ⟨"", 0, unit, newline, true, []⟩

/-- Append text, leaving leads and line start alone. -/
def append (b : Buffer) (text : String) : Buffer :=
  { b with text := b.text ++ text, length := b.length + b.unit.measure text }

/-- Append text to the current line; the empty text changes nothing. -/
def push (b : Buffer) (text : String) : Buffer :=
  if text.isEmpty then b else { b.append text with atLineStart := false }

/-- The leads of the next line, outermost first. -/
def pendingLead (b : Buffer) : String := String.join (b.indents.map Indent.lead)

/-- Write the leads of a line that was just started. Without open containers nothing is pending
and the buffer stays at the line start. -/
def flushIndent (b : Buffer) : Buffer :=
  if b.atLineStart && !b.indents.isEmpty then
    { b.append b.pendingLead with atLineStart := false, indents := b.indents.map Indent.advance }
  else
    b

/-- Write text after the pending leads; the empty text writes nothing, not even leads. -/
def write (b : Buffer) (text : String) : Buffer :=
  if text.isEmpty then b else b.flushIndent.push text

/-- Write one character after the pending leads. -/
def writeChar (b : Buffer) (c : Char) : Buffer := b.flushIndent.push (String.singleton c)

/-- Write a terminator after the pending leads, so that a blank line inside a container has the
container's lead. An absent terminator leaves the line open. -/
def writeLine (b : Buffer) (newline : Newline) : Buffer :=
  if newline.isAbsent then b.flushIndent
  else { b.flushIndent.push newline.text with atLineStart := true }

/-- Write the default terminator. -/
def writeDefaultLine (b : Buffer) : Buffer := b.writeLine b.newline

/-- End the current line with the default terminator unless it is empty; no lead is written. -/
def ensureLine (b : Buffer) : Buffer :=
  if b.atLineStart then b else { b.push b.newline.text with atLineStart := true }

/-- Open a container. -/
def pushIndent (b : Buffer) (indent : Indent) : Buffer :=
  { b with indents := b.indents ++ [indent] }

/-- The lead of the innermost open container. -/
def innermost? (b : Buffer) : Option Indent := b.indents.getLast?

/-- Leave the innermost open container. -/
def popIndent (b : Buffer) : Buffer := { b with indents := b.indents.dropLast }

end Buffer

end MarkdownSpans
