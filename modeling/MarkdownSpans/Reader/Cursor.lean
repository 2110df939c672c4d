import MarkdownSpans.Reader.Source
import MarkdownSpans.Text.Decimal

/-!
# Columns at the start of a line

At the start of a line white space is counted in columns: a tab reaches to the next multiple of
four, and the columns of a tab may belong partly to a container and partly to its content. A
`Cursor` is a position together with the columns of a tab that were not used up.
-/

namespace MarkdownSpans

/-- A position at the start of a line. -/
structure Cursor where
  pos : Nat
  /-- Where tab stops are counted from. -/
  tabStart : Nat
  /-- The columns left of the last tab. -/
  pending : Nat
  deriving Repr, Inhabited

/-- The markers of lists and what they say. -/
structure ListMarker where
  /-- The bullet, or the character after a number. -/
  mark : Char
  first : Nat
  /-- The columns by which the content of the item is indented. -/
  indent : Nat
  /-- The start of the content. -/
  content : Cursor

namespace Cursor

/-- The start of a line. -/
def start (pos : Nat) : Cursor := ⟨pos, pos, 0⟩

/-- Skip white space of so many columns, no matter whether there is so much; gives the columns that
are missing. -/
def skipColumns (s : Source) : Nat → Cursor → Nat × Cursor
  | 0, c => (0, c)
  | fuel + 1, c =>
    if 0 < c.pending then
      skipColumns s fuel { c with pending := c.pending - 1 }
    else
      match s.at? c.pos with
      | some ' ' => skipColumns s fuel { c with pos := c.pos + 1 }
      | some '\t' =>
        skipColumns s fuel ⟨c.pos + 1, c.pos + 1, 3 - (c.pos - c.tabStart) % 4⟩
      | _ => (fuel + 1, c)

/-- Skip up to so many columns of white space; gives the number skipped. -/
def skipUpTo (s : Source) (n : Nat) (c : Cursor) : Nat × Cursor :=
  let (missing, c) := skipColumns s n c
  (n - missing, c)

/-- Skip all white space of the line. -/
def skipAll (s : Source) (c : Cursor) : Cursor :=
  { c with pos := s.skip (fun x => x == ' ' || x == '\t') c.pos, pending := 0 }

/-- Whether the line ends here. -/
def isAtEnd (s : Source) (c : Cursor) : Bool := s.isLineEnd c.pos

/-- Skip the marker of a quote and one column after it. -/
def quoteMarker? (s : Source) (c : Cursor) : Option Cursor :=
  let (_, c) := skipUpTo s 3 c
  if s.has c.pos '>' then
    some (skipUpTo s 1 { c with pos := c.pos + 1 }).2
  else
    none

end Cursor

/-- The end of the line of a thematic break: three or more equal marks and nothing else. -/
def thematicBreak? (s : Source) (i : Nat) : Option Nat :=
  match s.at? i with
  | none => none
  | some c =>
    if c == '*' || c == '-' || c == '_' then
      let stop := s.skip (fun x => x == c || x == ' ' || x == '\t') i
      if 3 ≤ (s.slice i stop).count c then s.lineEnd? stop else none
    else
      none

namespace Cursor

/-- What follows the mark of a list item, given the column at which the content starts if one
space follows the mark. White space of five columns or more is content. -/
def afterMark? (s : Source) (mark : Char) (first indent : Nat) (c : Cursor) : Option ListMarker :=
  let (missing, c') := skipColumns s 1 c
  if missing == 0 || c'.isAtEnd s then
    if s.isBlankLine c'.pos then
      some ⟨mark, first, indent, c'⟩
    else
      let (columns, c'') := skipUpTo s 4 c'
      some (if columns < 4 then ⟨mark, first, indent + columns, c''⟩ else ⟨mark, first, indent, c'⟩)
  else
    none

/-- The marker of a list item that stands after so many columns of white space. A line that is a
thematic break is no item. -/
def listMarker? (s : Source) (indent : Nat) (c : Cursor) : Option ListMarker :=
  match s.at? c.pos with
  | none => none
  | some mark =>
    if mark == '-' || mark == '+' || mark == '*' then
      if (thematicBreak? s c.pos).isSome then none
      else afterMark? s mark 0 (indent + 2) { c with pos := c.pos + 1 }
    else if mark.isDigit then
      let stop := s.skip Char.isDigit c.pos
      match s.at? stop with
      | some delimiter =>
        if stop - c.pos ≤ 9 && (delimiter == '.' || delimiter == ')') then
          let first := digitsValue (s.slice c.pos stop)
          afterMark? s delimiter first (indent + 2 + (stop - c.pos)) { c with pos := stop + 1 }
        else
          none
      | none => none
    else
      none

end Cursor

end MarkdownSpans
