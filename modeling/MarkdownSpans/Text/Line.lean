/-!
# Lines and their terminators

A text is a sequence of lines, each with the terminator that ended it: `\n`, `\r\n` or `\r`.
`Line.split` cuts a text into such lines and `Line.written` puts one together again; a trailing
terminator opens no further line.
-/

namespace MarkdownSpans

/-- How a line ends. -/
inductive Newline where
  /-- The last line of a text, with no terminator. -/
  | absent
  | lf
  | crlf
  | cr
  deriving DecidableEq, Repr, Inhabited

namespace Newline

/-- The characters of a terminator. -/
def chars : Newline → List Char
  | absent => []
  | lf => ['\n']
  | crlf => ['\r', '\n']
  | cr => ['\r']

/-- The terminator as text. -/
def text : Newline → String
  | absent => ""
  | lf => "\n"
  | crlf => "\r\n"
  | cr => "\r"

theorem toList_text (n : Newline) : n.text.toList = n.chars := by
  cases n <;> rfl

/-- Whether no terminator was recorded. -/
def isAbsent (n : Newline) : Bool := n == absent

/-- The terminator at the end of a reversed text. -/
def ofReversed : List Char → Newline
  | '\n' :: '\r' :: _ => crlf
  | '\n' :: _ => lf
  | '\r' :: _ => cr
  | _ => absent

/-- The terminator a text ends with. -/
def detect (text : String) : Newline := ofReversed text.toList.reverse

end Newline

/-- Whether a character ends a line. -/
def isLineEnd (c : Char) : Bool := c == '\n' || c == '\r'

/-- One line of a text: its content and its terminator. -/
structure Line where
  text : String
  newline : Newline
  deriving DecidableEq, Repr, Inhabited

namespace Line

/-- A line that only carries a terminator. -/
def blank (newline : Newline) : Line := ⟨"", newline⟩

/-- The line as it stands in its text. -/
def written (line : Line) : String := line.text ++ line.newline.text

/-- The lines of a text given by its characters. -/
def splitChars : List Char → List (List Char × Newline)
  | [] => []
  | '\r' :: '\n' :: rest => ([], .crlf) :: splitChars rest
  | '\r' :: rest => ([], .cr) :: splitChars rest
  | '\n' :: rest => ([], .lf) :: splitChars rest
  | c :: rest =>
    match splitChars rest with
    | [] => [([c], .absent)]
    | (text, newline) :: lines => (c :: text, newline) :: lines

/-- The lines of a text, each with its terminator. -/
def split (text : String) : List Line :=
  (splitChars text.toList).map fun (chars, newline) => ⟨String.ofList chars, newline⟩

end Line

end MarkdownSpans
