/-!
# Line leads

A container that is being rendered puts a lead at the start of each of its lines: always the same
text, or one text per line as it was recorded.
-/

namespace MarkdownSpans

/-- What a container puts at the start of its lines. -/
inductive Indent where
  /-- The same lead on every line. -/
  | constant (lead : String)
  /-- One lead per line, `position` of which are used up; a line past the end gets none. -/
  | perLine (leads : List String) (position : Nat)
  deriving DecidableEq, Repr

namespace Indent

/-- A lead of `width` spaces. -/
def spaces (width : Nat) : Indent := constant (String.ofList (List.replicate width ' '))

/-- One lead per line, none of them used yet. -/
def ofLeads (leads : List String) : Indent := perLine leads 0

/-- The lead of the next line. -/
def lead : Indent → String
  | constant lead => lead
  | perLine leads position => leads[position]?.getD ""

/-- The leads that remain once the next line has taken its own. -/
def advance : Indent → Indent
  | constant lead => constant lead
  | perLine leads position =>
    perLine leads (if position < leads.length then position + 1 else position)

end Indent

end MarkdownSpans
