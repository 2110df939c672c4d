/-!
# Style spans

A span gives a range of the rendered text a kind. A `SpanTracker` records spans in the order in
which they are opened; each may be closed once, later closes of it change nothing.
-/

namespace MarkdownSpans

/-- How a range of text is formatted. -/
inductive SpanKind where
  | bold
  | italic
  | strikethrough
  /-- Code inside a line. -/
  | code
  /-- A block of code. -/
  | pre
  /-- A link, whose target the span carries. -/
  | url
  | unknown
  deriving DecidableEq, Repr, Inhabited

namespace SpanKind

/-- The kind's name on the chat platform. -/
def name : SpanKind → String
  | bold => "bold"
  | italic => "italic"
  | strikethrough => "strikethrough"
  | code => "code"
  | pre => "pre"
  | url => "url"
  | unknown => "unknown"

/-- Every kind. -/
def all : List SpanKind := [bold, italic, strikethrough, code, pre, url, unknown]

/-- The kind of a name. -/
def ofName? (name : String) : Option SpanKind := all.find? (·.name == name)

end SpanKind

/-- The style of a span, without its place. -/
structure SpanStyle where
  kind : SpanKind
  /-- The target of a link. -/
  url : Option String := none
  /-- The language of a block of code. -/
  language : Option String := none
  deriving DecidableEq, Repr

/-- A styled range of the rendered text, in the unit of the pass. -/
structure Span where
  offset : Nat
  length : Nat
  style : SpanStyle
  deriving DecidableEq, Repr

/-- The offset one past the last covered unit. -/
def Span.stop (s : Span) : Nat := s.offset + s.length

/-- A span as the tracker holds it: `stop?` is where it was closed. -/
structure TrackedSpan where
  style : SpanStyle
  offset : Nat
  stop? : Option Nat
  deriving DecidableEq, Repr

namespace TrackedSpan

/-- Whether the span was closed. -/
def isClosed (t : TrackedSpan) : Bool := t.stop?.isSome

/-- Close the span; the first close counts. -/
def close (t : TrackedSpan) (stop : Nat) : TrackedSpan :=
  { t with stop? := some (t.stop?.getD stop) }

/-- The span as it stands: empty while it is open, and if it ends before it starts. -/
def span (t : TrackedSpan) : Span :=
  ⟨t.offset, t.stop?.getD t.offset - t.offset, t.style⟩

end TrackedSpan

/-- The spans of a pass in the order in which they were opened. -/
structure SpanTracker where
  spans : List TrackedSpan := []
  deriving DecidableEq, Repr, Inhabited

namespace SpanTracker

/-- The number of spans recorded so far. -/
def size (t : SpanTracker) : Nat := t.spans.length

/-- The number of spans that are still open. -/
def openCount (t : SpanTracker) : Nat := t.spans.countP (!·.isClosed)

/-- Open a span at an offset; its handle is the number of spans before it. -/
def openAt (t : SpanTracker) (style : SpanStyle) (offset : Nat) : SpanTracker :=
  ⟨t.spans ++ [⟨style, offset, none⟩]⟩

/-- Close the span of a handle at an offset. A handle that was never given out changes nothing. -/
def closeAt (t : SpanTracker) (handle stop : Nat) : SpanTracker :=
  ⟨t.spans.modify handle (·.close stop)⟩

/-- The first span that was left open. -/
def firstOpen? (t : SpanTracker) : Option TrackedSpan := t.spans.find? (!·.isClosed)

/-- The recorded spans. -/
def toSpans (t : SpanTracker) : List Span := t.spans.map (·.span)

end SpanTracker

end MarkdownSpans
