import MarkdownSpans.Text.Line
import MarkdownSpans.Text.Space

/-!
# Documents

A document is a tree: container blocks hold blocks, leaf blocks hold inlines. Each block carries
the white space and the blank lines it was found in, its `Trivia`, so that they can be written
again as they were.
-/

namespace MarkdownSpans

/-- White space and blank lines around a block. Lines that were not recorded (`none`) differ from
lines that were recorded and are none (`some []`): only the former call for the default
separator. -/
structure Trivia where
  /-- Blank lines before the block. -/
  linesBefore : Option (List Line) := none
  /-- Blank lines after the block. -/
  linesAfter : Option (List Line) := none
  /-- White space before the first character. -/
  before : String := ""
  /-- White space after the last character. -/
  after : String := ""
  deriving DecidableEq, Repr, Inhabited

/-- The trivia of a block that was found with no blank lines after it. -/
def Trivia.tracked : Trivia := { linesAfter := some [] }

/-- The parts of a paragraph or a heading. -/
inductive Inline where
  | literal (content : String)
  /-- Text between two runs of `count` delimiters. -/
  | emphasis (delimiter : Char) (count : Nat) (children : List Inline)
  | codeSpan (content : String)
  /-- An address that is its own text. -/
  | autolink (url : String) (isEmail : Bool)
  | link (url : String) (title : Option String) (isImage : Bool) (children : List Inline)
  | lineBreak (newline : Newline) (hard : Bool)
  | htmlInline (tag : String)
  /-- An entity reference with its spelling and the text it stands for. -/
  | htmlEntity (spelling : String) (decoded : String)
  /-- A delimiter run that is text. -/
  | delimiter (literal : String) (children : List Inline)
  /-- A part of a kind that an extension adds. -/
  | custom (kind : String) (content : String) (children : List Inline)
  deriving Repr, Inhabited

/-- The lines around the content of a fenced code block. -/
structure Fence where
  /-- The text after the opening fence. -/
  info : String
  opening : Line
  /-- The closing line, if the block was closed. -/
  closing : Option Line
  deriving DecidableEq, Repr, Inhabited

/-- The language a fence names: the first word of its info text. -/
def Fence.language? (fence : Fence) : Option String := firstWord? fence.info

/-- How the items of a list are marked and set apart. -/
structure ListStyle where
  ordered : Bool := false
  /-- The bullet; `1` for decimal numerals. -/
  bullet : Char := '-'
  /-- The character after a number. -/
  delimiter : Char := '.'
  /-- The number of the first item as it is written. -/
  start : Option String := none
  /-- Whether blank lines separate the items. -/
  loose : Bool := false
  deriving DecidableEq, Repr, Inhabited

/-- Whether items are numbered with decimal numerals. -/
def ListStyle.isDecimal (style : ListStyle) : Bool := style.ordered && style.bullet == '1'

/-- What stands before the content of one line of a quote. -/
structure QuoteLine where
  /-- White space before the marker. -/
  before : String := ""
  /-- Whether the line has a marker; a lazy continuation has none. -/
  marker : Bool := false
  /-- Whether a space follows the marker. -/
  spaceAfter : Bool := false
  /-- White space after the marker and its space. -/
  after : String := ""
  newline : Newline := .absent
  deriving DecidableEq, Repr, Inhabited

/-- The line of a quote that is marked in the common way. -/
def QuoteLine.marked (newline : Newline) : QuoteLine :=
  { marker := true, spaceAfter := true, newline }

/-- The text before the content of the line. -/
def QuoteLine.lead (line : QuoteLine) : String :=
  line.before ++ (if line.marker then ">" else "") ++ (if line.spaceAfter then " " else "") ++
    line.after

/-- A link reference definition, `[label]: url "title"`, by its parts. -/
structure LinkDefinition where
  label : String := ""
  /-- White space before the address. -/
  beforeUrl : String := ""
  /-- The address without its angle brackets. -/
  url : String := ""
  urlInAngleBrackets : Bool := false
  /-- White space before the title. -/
  beforeTitle : String := ""
  /-- The title without its delimiters. -/
  title : Option String := none
  /-- The character that opens the title. -/
  titleDelimiter : Char := '"'
  newline : Newline := .absent
  trivia : Trivia := {}
  deriving DecidableEq, Repr, Inhabited

mutual

/-- The blocks of a document. -/
inductive Block where
  | paragraph (inlines : List Inline) (trivia : Trivia)
  | heading (level : Nat) (inlines : List Inline) (newline : Newline) (trivia : Trivia)
  | codeBlock (lines : List Line) (fence : Option Fence) (trivia : Trivia)
  | list (style : ListStyle) (items : List ListItem) (trivia : Trivia)
  /-- A quote with one entry per line. -/
  | quote (lines : List QuoteLine) (children : List Block) (trivia : Trivia)
  | thematicBreak (content : String) (newline : Newline) (trivia : Trivia)
  | htmlBlock (lines : List Line) (trivia : Trivia)
  | linkDefinition (definition : LinkDefinition)
  | linkDefinitionGroup (definitions : List LinkDefinition) (trivia : Trivia)
  /-- The place of a container that held no blocks. -/
  | emptyBlock (trivia : Trivia)
  /-- A block of a kind that an extension adds. -/
  | custom (kind : String) (children : List Block) (inlines : List Inline) (lines : List Line)
      (trivia : Trivia)

/-- One item of a list. -/
inductive ListItem where
  | mk (children : List Block) (trivia : Trivia)

end

deriving instance Repr for Block, ListItem

instance : Inhabited Block := ⟨.emptyBlock {}⟩
instance : Inhabited ListItem := ⟨.mk [] {}⟩

namespace Block

/-- The white space and blank lines around a block. -/
def trivia : Block → Trivia
  | paragraph _ t | heading _ _ _ t | codeBlock _ _ t | list _ _ t | quote _ _ t
  | thematicBreak _ _ t | htmlBlock _ t | linkDefinitionGroup _ t | emptyBlock t
  | custom _ _ _ _ t => t
  | linkDefinition d => d.trivia

/-- A block with other trivia. -/
def withTrivia (t : Trivia) : Block → Block
  | paragraph inlines _ => paragraph inlines t
  | heading level inlines newline _ => heading level inlines newline t
  | codeBlock lines fence _ => codeBlock lines fence t
  | list style items _ => list style items t
  | quote lines children _ => quote lines children t
  | thematicBreak content newline _ => thematicBreak content newline t
  | htmlBlock lines _ => htmlBlock lines t
  | linkDefinition d => linkDefinition { d with trivia := t }
  | linkDefinitionGroup definitions _ => linkDefinitionGroup definitions t
  | emptyBlock _ => emptyBlock t
  | custom kind children inlines lines _ => custom kind children inlines lines t

@[simp] theorem trivia_withTrivia (t : Trivia) (b : Block) : (b.withTrivia t).trivia = t := by
  cases b <;> rfl

end Block

namespace ListItem

/-- The blocks of an item. -/
def children : ListItem → List Block
  | mk children _ => children

/-- The white space and blank lines around an item. -/
def trivia : ListItem → Trivia
  | mk _ trivia => trivia

end ListItem

/-- A document: its top-level blocks. -/
structure Document where
  blocks : List Block := []
  deriving Inhabited, Repr

end MarkdownSpans
