import MarkdownSpans.Output.Buffer
import MarkdownSpans.Render.Program

/-!
# The state of a pass

A `Context` holds the output so far, the spans, the two flags that rules read and set, the number of
nodes being rendered, the raw tags offered to the interceptor and the remarks left behind. An
`Outcome` is a context together with the error that stopped the program which led to it, if any:
the state is there on failure too.
-/

namespace MarkdownSpans

/-- The state of a render pass. -/
structure Context where
  buffer : Buffer
  spans : SpanTracker
  compact : Bool
  last : Bool
  /-- The number of nodes being rendered, one inside the other. -/
  depth : Nat
  /-- The raw tags offered so far with the answers, oldest first. -/
  offers : List (String × Bool)
  /-- The remarks left so far, oldest first. -/
  notes : List Note

/-- A context and the error that led to it. -/
structure Outcome where
  context : Context
  error : Option RenderError

namespace Context

/-- The state at the start of a pass. -/
def start (options : RenderOptions) : Context :=
  ⟨.empty options.unit options.newline, {}, false, true, 0, [], []⟩

/-- What a rule sees of the state. -/
def view (options : RenderOptions) (c : Context) : View where
  options := options
  length := c.buffer.length
  isEmpty := c.buffer.text.isEmpty
  atLineStart := c.buffer.atLineStart
  indentDepth := c.buffer.indents.length
  compact := c.compact
  last := c.last

/-- Change the output. -/
def mapBuffer (f : Buffer → Buffer) (c : Context) : Context := { c with buffer := f c.buffer }

/-- Open a span where the text of the current line begins or goes on: pending leads are written
first, so that they never count towards the span. -/
def openSpan (style : SpanStyle) (c : Context) : Context :=
  let buffer := c.buffer.flushIndent
  { c with buffer, spans := c.spans.openAt style buffer.length }

/-- Close the span of a handle at the end of the text. -/
def closeSpan (handle : Nat) (c : Context) : Context :=
  { c with spans := c.spans.closeAt handle c.buffer.length }

/-- Begin a node. -/
def enterNode (c : Context) : Context := { c with depth := c.depth + 1 }

/-- End a node. -/
def leaveNode (c : Context) : Context := { c with depth := c.depth - 1 }

/-- Record a raw tag and the answer to it. -/
def offer (tag : String) (answer : Bool) (c : Context) : Context :=
  { c with offers := c.offers ++ [(tag, answer)] }

/-- Leave a remark. -/
def addNote (n : Note) (c : Context) : Context := { c with notes := c.notes ++ [n] }

/-- The context is reached without an error. -/
def ok (c : Context) : Outcome := ⟨c, none⟩

/-- The context is reached by an error. -/
def failed (c : Context) (error : RenderError) : Outcome := ⟨c, some error⟩

end Context

namespace Outcome

/-- Change the state whether or not there was an error. -/
def mapContext (f : Context → Context) (o : Outcome) : Outcome := { o with context := f o.context }

/-- Go on unless there was an error. -/
def andThen (o : Outcome) (next : Context → Outcome) : Outcome :=
  match o.error with
  | none => next o.context
  | some _ => o

end Outcome

end MarkdownSpans
