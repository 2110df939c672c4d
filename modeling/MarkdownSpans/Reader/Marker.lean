import MarkdownSpans.Reader.Html
import MarkdownSpans.Reader.Lead

/-!
# The markers of blocks

The starts of lines that make a block, and which of them end a paragraph before them.
-/

namespace MarkdownSpans

/-- The level of the heading that a run of number signs starts. -/
def headingLevel? (s : Source) (i : Nat) : Option Nat :=
  let stop := s.run '#' i
  if i < stop && stop ≤ i + 6 && (s.at? stop).all isTextSpace then some (stop - i) else none

/-- The level of the heading whose last line is an underline, and the end of that line. -/
def underline? (s : Source) (i : Nat) : Option (Nat × Nat) :=
  match s.at? i with
  | some '=' => (s.blankLine? (s.run '=' i)).map fun stop => (1, stop)
  | some '-' => (s.blankLine? (s.run '-' i)).map fun stop => (2, stop)
  | _ => none

/-- The marks that open a block of code. -/
structure FenceMarks where
  mark : Char
  count : Nat

/-- The marks of a fence that opens a block of code. No backtick may follow backticks in their
line. -/
def openingFence? (s : Source) (i : Nat) : Option FenceMarks :=
  let fence? (mark : Char) : Option FenceMarks :=
    let stop := s.run mark i
    if 3 ≤ stop - i then some ⟨mark, stop - i⟩ else none
  match s.at? i with
  | some '~' => fence? '~'
  | some '\x60' =>
    let stop := s.run '\x60' i
    if (s.slice stop (s.nextLine stop)).contains '\x60' then none else fence? '\x60'
  | _ => none

/-- The end of the marks of a fence that closes a block of code. The end of the source closes it
too. -/
def closingFence? (s : Source) (fence : FenceMarks) (i : Nat) : Option Nat :=
  if s.size ≤ i then
    some i
  else
    let marks := s.run fence.mark i
    let stop := s.run ' ' marks
    if fence.count ≤ marks - i && s.isLineEnd stop then some stop else none

/-- Whether a list item starts at a position. Inside a paragraph that could go on, an item needs
content, and a numbered one the number one. -/
def startsListItem (s : Source) (inParagraph : Bool) (i : Nat) : Bool :=
  let marked (stop : Nat) (first : Nat) : Bool :=
    ((s.at? stop).all fun c => isTextSpace c && c != '\x0b' && c != '\x0c')
      && (!inParagraph || (first == 1 && !s.isBlankLine stop))
  match s.at? i with
  | none => false
  | some c =>
    if c == '-' || c == '+' || c == '*' then
      marked (i + 1) 1
    else
      let stop := s.skip Char.isDigit i
      let first := digitsValue (s.slice i stop)
      i < stop && stop ≤ i + 9 && (s.has stop '.' || s.has stop ')') && marked (stop + 1) first

/-- Whether what stands at a position ends a paragraph before it; `current` says whether the line
belongs to the containers of the paragraph. -/
def endsParagraph (s : Source) (current : Bool) (i : Nat) : Bool :=
  s.isLineEnd i
    || (thematicBreak? s i).isSome
    || (headingLevel? s i).isSome
    || (openingFence? s i).isSome
    || s.has i '>'
    || startsListItem s current i
    || (htmlBlockEnd? s i).isSome
    || startsHtmlBlock s i

end MarkdownSpans
