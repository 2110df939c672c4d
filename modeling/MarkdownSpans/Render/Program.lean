import MarkdownSpans.Output.Indent
import MarkdownSpans.Text.Unit
import MarkdownSpans.Render.Error

/-!
# Rules as programs

What a rule does to a pass is a `Program`: it writes, opens spans and indentation around further
programs, has other nodes rendered, looks at the state of the pass and fails. A program has no
other way to reach the output, so what holds of every program holds of every rule.
-/

namespace MarkdownSpans

/-- What to do with a node that has no rule. -/
inductive UnknownNodePolicy where
  | error
  /-- Leave the node out, and all below it. -/
  | skip
  deriving DecidableEq, Repr, Inhabited

/-- The options of a pass. -/
structure RenderOptions where
  /-- The unit of offsets and lengths. -/
  unit : OffsetUnit := .utf16
  /-- How deep nodes may be nested. -/
  maxDepth : Nat := 128
  unknownNodes : UnknownNodePolicy := .error
  /-- The terminator where the document records none. -/
  newline : Newline := .lf
  /-- Whether fenced code blocks keep their fence lines. -/
  keepCodeFences : Bool := false
  deriving DecidableEq, Repr, Inhabited

/-- What a rule sees of the pass it runs in. -/
structure View where
  options : RenderOptions
  /-- The length of the text in the unit of the pass. -/
  length : Nat
  isEmpty : Bool
  atLineStart : Bool
  indentDepth : Nat
  /-- Whether paragraphs stand in a tight list. -/
  compact : Bool
  /-- Whether the block being rendered is the last of its container. -/
  last : Bool
  deriving DecidableEq, Repr

/-- A remark that a rule leaves behind for the caller of the pass. -/
inductive Note where
  /-- Whether a tag was handled by the interceptor. -/
  | handled (answer : Bool)
  /-- An error that the rule did not pass on. -/
  | caught (error : RenderError)
  | oldCompact (value : Bool)
  | oldLast (value : Bool)
  /-- The state of the pass at a node. -/
  | probe (kindName : String) (view : View)
  deriving DecidableEq, Repr

/-- What a rule does. A program stops at its first error. -/
inductive Program where
  | done
  | fail (error : RenderError)
  /-- One program after another. -/
  | seq (first second : Program)
  | write (text : String)
  | writeChar (c : Char)
  | writeLine (newline : Newline)
  | writeDefaultLine
  | ensureLine
  /-- Run a program inside a span; the span is closed even if the program fails. -/
  | span (style : SpanStyle) (body : Program)
  /-- Run a program with a line lead; the lead is dropped even if the program fails. -/
  | indent (indent : Indent) (body : Program)
  /-- Run a program with the compact flag set, and restore the flag. -/
  | withCompact (value : Bool) (body : Program)
  /-- Run a program with the last flag set, and restore the flag. -/
  | withLast (value : Bool) (body : Program)
  | setCompact (value : Bool)
  | setLast (value : Bool)
  /-- Have a node rendered by its own rule. -/
  | render (node : Node)
  /-- Offer a raw tag to the interceptor and go on with its answer. -/
  | intercept (tag : String) (next : Bool → Program)
  /-- Look at the pass. -/
  | observe (next : View → Program)
  /-- Look at the remarks left so far, to go by what was seen before: inside a span that is closed
  by now, or at another node. -/
  | consult (next : List Note → Program)
  /-- Run a program and go on with its error, if it has one. -/
  | attempt (body : Program) (next : Option RenderError → Program)
  | note (note : Note)

namespace Program

/-- Programs one after another. -/
def all : List Program → Program
  | [] => done
  | p :: rest => seq p (all rest)

/-- Recorded lines as they were. -/
def lines : List Line → Program
  | [] => done
  | line :: rest => seq (write line.text) (seq (writeLine line.newline) (lines rest))

/-- The blank lines recorded before a block. -/
def linesBefore (trivia : Trivia) : Program := lines (trivia.linesBefore.getD [])

/-- The blank lines recorded after a block. If none were recorded, a block that is not the last of
its container is followed by one default terminator. -/
def linesAfter (trivia : Trivia) : Program :=
  match trivia.linesAfter with
  | some recorded => lines recorded
  | none => observe fun view => if view.last then done else writeDefaultLine

/-- Inlines in order. -/
def inlines : List Inline → Program
  | [] => done
  | i :: rest => seq (render (.inline i)) (inlines rest)

/-- Blocks in order, each of them told whether it is the last. -/
def blocks : List Block → Program
  | [] => done
  | b :: rest => seq (withLast rest.isEmpty (render (.block b))) (blocks rest)

end Program

end MarkdownSpans
