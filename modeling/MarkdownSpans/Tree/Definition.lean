import MarkdownSpans.Document.Basic

/-!
# Reading recorded markup

What the events of a reader leave out is read again from the source: the parts of a link reference
definition, with every character of it kept in one of them, and the marker of a quote line.
-/

namespace MarkdownSpans

/-- A text cut before the first occurrence of a character that no backslash escapes. -/
def splitUnescaped (target : Char) : List Char → List Char × List Char
  | '\\' :: c :: rest =>
    let (before, after) := splitUnescaped target rest
    ('\\' :: c :: before, after)
  | c :: rest =>
    if c = target then
      ([], c :: rest)
    else
      let (before, after) := splitUnescaped target rest
      (c :: before, after)
  | [] => ([], [])

/-- A text without a lead, if it has it. -/
def dropLead (lead : List Char) (cs : List Char) : List Char :=
  if lead.isPrefixOf cs then cs.drop lead.length else cs

/-- The character that closes what a character opens, for the three delimiters of titles. -/
def titleCloser? : Char → Option Char
  | '"' => some '"'
  | '\'' => some '\''
  | '(' => some ')'
  | _ => none

/-- The parts of the title of a definition. -/
structure TitleParts where
  beforeTitle : List Char
  title : Option (List Char)
  delimiter : Char
  after : List Char

/-- The end of a definition, from behind its address: a title and what follows it. Without a title
all of it is white space and rest after the address. -/
def titleParts (cs : List Char) : TitleParts :=
  let spacing := cs.takeWhile isSpace
  let rest := cs.dropWhile isSpace
  match rest with
  | [] => ⟨[], none, '"', cs⟩
  | opener :: inner =>
    match titleCloser? opener with
    | none => ⟨[], none, '"', cs⟩
    | some closer =>
      let (title, after) := splitUnescaped closer inner
      ⟨spacing, some title, opener, after.drop 1⟩

/-- The address of a definition, whether it stands in angle brackets, and what follows it. -/
def addressParts : List Char → List Char × Bool × List Char
  | '<' :: inner => (inner.takeWhile (· ≠ '>'), true, (inner.dropWhile (· ≠ '>')).drop 1)
  | cs => (cs.takeWhile (!isSpace ·), false, cs.dropWhile (!isSpace ·))

/-- The parts of a definition such as `[label]: url "title"`. -/
def LinkDefinition.read (raw : String) (newline : Newline) (linesBefore : Option (List Line)) :
    LinkDefinition :=
  let cs := raw.toList
  let before := cs.takeWhile isSpace
  let (label, behindLabel) := splitUnescaped ']' (dropLead ['['] (cs.dropWhile isSpace))
  let tail := dropLead [']', ':'] behindLabel
  let beforeUrl := tail.takeWhile isSpace
  let (url, urlInAngleBrackets, behindUrl) := addressParts (tail.dropWhile isSpace)
  let parts := titleParts behindUrl
  { label := String.ofList label
    beforeUrl := String.ofList beforeUrl
    url := String.ofList url
    urlInAngleBrackets
    beforeTitle := String.ofList parts.beforeTitle
    title := parts.title.map String.ofList
    titleDelimiter := parts.delimiter
    newline
    trivia :=
      { linesBefore
        linesAfter := some []
        before := String.ofList before
        after := String.ofList parts.after } }

/-- Whether a character is a space or a tab. -/
def isBlank (c : Char) : Bool := c == ' ' || c == '\t'

/-- What stands before the content of a quote line, read from the column of the quote on. A line
without marker has nothing of its own before its content. -/
def QuoteLine.read (rest : List Char) (newline : Newline) : QuoteLine :=
  match rest.dropWhile isBlank with
  | '>' :: content =>
    { before := String.ofList (rest.takeWhile isBlank), marker := true,
      spaceAfter := content.head? == some ' ', newline }
  | _ => { newline }

end MarkdownSpans
