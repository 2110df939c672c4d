/-!
# Looking at a source

A `Source` is a text whose characters are looked at by position. The scans below start at a
position and give the position at which they end.
-/

namespace MarkdownSpans

/-- A text, as an array of characters. -/
structure Source where
  chars : Array Char

/-- A stretch of a source between two positions. -/
structure Extent where
  start : Nat
  stop : Nat
  deriving DecidableEq, Repr, Inhabited

/-! ### Classes of characters -/

/-- White space inside a line. -/
def isInlineSpace (c : Char) : Bool := c == ' ' || c == '\t' || c == '\x0b' || c == '\x0c'

/-- White space of ASCII, line ends among it. -/
def isTextSpace (c : Char) : Bool := isInlineSpace c || c == '\n' || c == '\r'

namespace Source

/-- The source of a text. -/
def ofString (text : String) : Source := ⟨text.toList.toArray⟩

/-- The number of characters. -/
def size (s : Source) : Nat := s.chars.size

/-- The character at a position, if there is one. -/
def at? (s : Source) (i : Nat) : Option Char := s.chars[i]?

/-- Whether a character stands at a position. -/
def has (s : Source) (i : Nat) (c : Char) : Bool := s.at? i == some c

/-- Whether the character at a position is of a class. -/
def any (s : Source) (i : Nat) (p : Char → Bool) : Bool := (s.at? i).any p

/-- The part of a source before a position, in which positions stay the same. -/
def upTo (s : Source) (stop : Nat) : Source := ⟨s.chars.extract 0 stop⟩

/-- The characters between two positions. -/
def slice (s : Source) (start stop : Nat) : List Char := (s.chars.extract start stop).toList

/-- The text between two positions. -/
def text (s : Source) (start stop : Nat) : String := String.ofList (s.slice start stop)

/-- The end of the run of characters of a class that starts at a position. -/
def skip (s : Source) (p : Char → Bool) (i : Nat) : Nat :=
  if h : i < s.chars.size then
    if p s.chars[i] then s.skip p (i + 1) else i
  else
    i
  termination_by s.chars.size - i

/-- The start of the run of characters of a class that ends at a position, but not before `low`. -/
def skipBack (s : Source) (p : Char → Bool) (low : Nat) : Nat → Nat
  | 0 => 0
  | i + 1 => if low ≤ i && s.any i p then s.skipBack p low i else i + 1

/-- The end of the run of one character that starts at a position. -/
def run (s : Source) (c : Char) (i : Nat) : Nat := s.skip (· == c) i

/-- Whether a text stands at a position. -/
def startsWith (s : Source) (i : Nat) : List Char → Bool
  | [] => true
  | c :: rest => s.has i c && s.startsWith (i + 1) rest

/-- Whether a text stands between two positions. -/
def contains (s : Source) (start stop : Nat) (text : List Char) : Bool :=
  (List.range (stop - start)).any fun k =>
    start + k + text.length ≤ stop && s.startsWith (start + k) text

/-- The end of the first occurrence of a text that starts at a position or later. -/
def find? (s : Source) (text : List Char) (i : Nat) : Option Nat :=
  if h : i < s.chars.size then
    if s.startsWith i text then some (i + text.length) else s.find? text (i + 1)
  else
    none
  termination_by s.chars.size - i

/-- The position after the line end at a position; the end of the source ends a line too. -/
def lineEnd? (s : Source) (i : Nat) : Option Nat :=
  match s.at? i with
  | none => some i
  | some '\n' => some (i + 1)
  | some '\r' => some (if s.has (i + 1) '\n' then i + 2 else i + 1)
  | _ => none

/-- Whether a line ends at a position. -/
def isLineEnd (s : Source) (i : Nat) : Bool := (s.lineEnd? i).isSome

/-- The position after a blank rest of a line. -/
def blankLine? (s : Source) (i : Nat) : Option Nat := s.lineEnd? (s.skip isInlineSpace i)

/-- Whether the rest of the line at a position is blank. -/
def isBlankLine (s : Source) (i : Nat) : Bool := (s.blankLine? i).isSome

/-- The position after the next line feed. Only line feeds end the lines of raw blocks. -/
def nextLine (s : Source) (i : Nat) : Nat :=
  let stop := s.skip (· ≠ '\n') i
  if s.has stop '\n' then stop + 1 else stop

end Source

end MarkdownSpans
