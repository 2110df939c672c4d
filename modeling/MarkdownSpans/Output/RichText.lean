import MarkdownSpans.Output.Span
import MarkdownSpans.Text.Line
import MarkdownSpans.Text.Unit

/-!
# Rich text

The result of a render: plain text and the spans that style it. It can be written as a table of
its spans.
-/

namespace MarkdownSpans

/-- Plain text with style spans, in the order in which they were opened. -/
structure RichText where
  text : String
  spans : List Span
  /-- The unit of offsets and lengths. -/
  unit : OffsetUnit
  deriving DecidableEq, Repr

namespace RichText

/-- The text that a span covers; none if the span does not fit the text. -/
def covered? (r : RichText) (s : Span) : Option String :=
  (r.unit.byteIndex r.text s.offset).bind fun start =>
    (r.unit.byteIndex r.text s.stop).bind fun stop => sliceBytes r.text start stop

/-- One row of the span table. -/
def row (r : RichText) (s : Span) : String :=
  String.intercalate ":"
    [s.style.kind.name, toString s.offset, toString s.length, (r.covered? s).getD "",
      s.style.url.getD ""] ++ "\n"

/-- The text, ended by a line feed, and a table of its spans. -/
def table (r : RichText) : String :=
  r.text ++ (if r.text.toList.getLast? = some '\n' then "" else "\n") ++
    "Type:Offset:Length:Text:Url\n" ++ String.join (r.spans.map r.row)

end RichText

end MarkdownSpans
