import MarkdownSpans.Reader.Cursor

/-!
# What the lines of a container start with

The lines of a quote start with its marker and the lines of a list item with white space. A line
belongs to the open containers, from the outermost on, as long as it starts with their leads.
-/

namespace MarkdownSpans

/-- What the lines of a container start with. -/
inductive Lead where
  | quote
  /-- A list asks nothing of its lines. -/
  | list
  /-- So many columns of white space, or the end of the line. -/
  | item (indent : Nat)
  deriving DecidableEq, Repr, Inhabited

namespace Lead

/-- The cursor after a lead, if the line has it. -/
def skip? (s : Source) (c : Cursor) : Lead → Option Cursor
  | quote => c.quoteMarker? s
  | list => some c
  | item indent =>
    let (missing, c) := c.skipColumns s indent
    if missing == 0 || c.isAtEnd s then some c else none

end Lead

/-- The number of leads, from the outermost on, that a line has, and the cursor after them. -/
def matchLeads (s : Source) : List Lead → Cursor → Nat × Cursor
  | [], c => (0, c)
  | lead :: rest, c =>
    match lead.skip? s c with
    | some c =>
      let (matched, c) := matchLeads s rest c
      (matched + 1, c)
    | none => (0, c)

/-- Whether a line has all leads, and the cursor after those that it has. -/
def matchAll (s : Source) (leads : List Lead) (c : Cursor) : Bool × Cursor :=
  let (matched, c) := matchLeads s leads c
  (matched == leads.length, c)

/-- The position after the leads of the line that starts at a position. -/
def skipLeads (s : Source) (leads : List Lead) (i : Nat) : Nat :=
  (matchLeads s leads (Cursor.start i)).2.pos

end MarkdownSpans
