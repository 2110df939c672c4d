import MarkdownSpans.Document.Node
import MarkdownSpans.Output.Span

/-!
# Why a render fails

A failed pass has no output: offsets only mean something against the complete text.
-/

namespace MarkdownSpans

/-- The causes that end a render pass. -/
inductive RenderError where
  /-- A node of this kind has no rule, and such nodes are refused. -/
  | unknownNode (kind : String)
  /-- The rule of one kind was given a node of another. -/
  | ruleMismatch (expected : NodeKind) (found : String)
  /-- Nodes are nested deeper than the limit. -/
  | depthLimit (limit : Nat)
  /-- A span was opened at this offset and never closed. -/
  | unclosedSpan (kind : SpanKind) (offset : Nat)
  deriving DecidableEq, Repr

/-- The text of an error. -/
def RenderError.message : RenderError → String
  | unknownNode kind => "no rendering rule registered for node kind \x60" ++ kind ++ "\x60"
  | ruleMismatch expected found =>
    "rule for \x60" ++ expected.name ++ "\x60 cannot render a \x60" ++ found ++ "\x60 node"
  | depthLimit limit => "document nesting exceeds the maximum depth of " ++ toString limit
  | unclosedSpan kind offset =>
    kind.name ++ " span opened at offset " ++ toString offset ++ " was never closed"

/-- The spans of a tracker, or the first one that was left open. -/
def SpanTracker.finish (t : SpanTracker) : Except RenderError (List Span) :=
  match t.firstOpen? with
  | some left => .error (.unclosedSpan left.style.kind left.offset)
  | none => .ok t.toSpans

end MarkdownSpans
