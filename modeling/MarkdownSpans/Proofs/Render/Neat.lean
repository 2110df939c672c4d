import MarkdownSpans.Proofs.Output.Page
import MarkdownSpans.Proofs.Render.Dispatch

/-!
# Documents that are written line by line

`Node.Neat n` says of a node that at most `n` nodes are nested in it, itself included, that no part
of it is of an extension, that no text in it holds a line end and every terminator ends with a line
feed, that every inline with a style has some text and every block of code some line.
-/

namespace MarkdownSpans

namespace Inline

mutual

/-- The text of an inline. -/
def text : Inline → String
  | literal content => content
  | emphasis _ _ children => listText children
  | codeSpan content => content
  | autolink url _ => url
  | link _ _ _ children => listText children
  | lineBreak newline _ => newline.text
  | htmlInline tag => tag
  | htmlEntity spelling _ => spelling
  | delimiter text children => text ++ listText children
  | custom .. => ""

/-- The text of inlines one after another. -/
def listText : List Inline → String
  | [] => ""
  | i :: rest => i.text ++ listText rest

end

/-- An inline of an extension has no text. -/
theorem text_of_custom {i : Inline} (h : (Node.inline i).customName? ≠ none) : i.text = "" := by
  cases i with
  | custom => rfl
  | _ => exact absurd rfl h

/-- What an inline has of its own is neat. -/
def OwnNeat : Inline → Prop
  | literal content => Unbroken content.toList
  | emphasis mark _ children => emphasisStyle? mark ≠ none → listText children ≠ ""
  | codeSpan content => Unbroken content.toList ∧ content ≠ ""
  | autolink url _ => Unbroken url.toList ∧ url ≠ ""
  | link _ _ _ children => listText children ≠ ""
  | lineBreak newline _ => newline.HasFeed
  | htmlInline tag => Unbroken tag.toList
  | htmlEntity spelling _ => Unbroken spelling.toList
  | delimiter text _ => Unbroken text.toList
  | custom .. => False

end Inline

/-- Blank lines and white space that are neat. -/
structure Trivia.Neat (t : Trivia) : Prop where
  linesBefore : ∀ lines ∈ t.linesBefore, ∀ line ∈ lines, line.Neat
  linesAfter : ∀ lines ∈ t.linesAfter, ∀ line ∈ lines, line.Neat
  before : Unbroken t.before.toList
  after : Unbroken t.after.toList

/-- A line of a quote that is neat. -/
structure QuoteLine.Neat (line : QuoteLine) : Prop where
  before : Unbroken line.before.toList
  after : Unbroken line.after.toList
  newline : line.newline.HasFeed

/-- A link definition that is neat. -/
structure LinkDefinition.Neat (d : LinkDefinition) : Prop where
  label : Unbroken d.label.toList
  beforeUrl : Unbroken d.beforeUrl.toList
  url : Unbroken d.url.toList
  beforeTitle : Unbroken d.beforeTitle.toList
  title : ∀ title ∈ d.title, Unbroken title.toList
  titleDelimiter : isLineEnd d.titleDelimiter = false
  newline : d.newline.HasFeed
  trivia : d.trivia.Neat

/-- Fence lines that are neat. -/
structure Fence.Neat (fence : Fence) : Prop where
  opening : fence.opening.Neat
  closing : ∀ line ∈ fence.closing, line.Neat

/-- What a block has of its own is neat. -/
def Block.OwnNeat : Block → Prop
  | paragraph _ trivia => trivia.Neat
  | heading _ _ newline trivia => newline.HasFeed ∧ trivia.Neat
  | codeBlock lines fence trivia =>
    lines ≠ [] ∧ (∀ line ∈ lines, line.Neat) ∧ (∀ f ∈ fence, f.Neat) ∧ trivia.Neat
  | list style _ trivia =>
    isLineEnd style.bullet = false ∧ isLineEnd style.delimiter = false ∧ trivia.Neat
  | quote lines _ trivia => (∀ line ∈ lines, line.Neat) ∧ trivia.Neat
  | thematicBreak content newline trivia =>
    Unbroken content.toList ∧ newline.HasFeed ∧ trivia.Neat
  | htmlBlock lines trivia => (∀ line ∈ lines, line.Neat) ∧ trivia.Neat
  | linkDefinition d => d.Neat
  | linkDefinitionGroup _ trivia => trivia.Neat
  | emptyBlock trivia => trivia.Neat
  | custom .. => False

namespace Node

/-- What a node has of its own is neat. -/
def OwnNeat : Node → Prop
  | document _ => True
  | block b => b.OwnNeat
  | item i => i.trivia.Neat
  | inline i => i.OwnNeat

/-- The node and all the nodes that are rendered in it are neat, and at most `n` of them are nested
in one another. -/
inductive Neat : Nat → Node → Prop where
  | intro {n : Nat} {node : Node} (own : node.OwnNeat) (parts : ∀ part ∈ node.parts, Neat n part) :
    Neat (n + 1) node

variable {n : Nat} {node : Node}

theorem Neat.own (h : node.Neat n) : node.OwnNeat := by
  cases h with
  | intro own => exact own

/-- A neat node is of no extension. -/
theorem customName?_of_ownNeat (h : node.OwnNeat) : node.customName? = none := by
  cases node with
  | document | item => rfl
  | block b =>
    cases b with
    | custom => exact h.elim
    | _ => rfl
  | inline i =>
    cases i with
    | custom => exact h.elim
    | _ => rfl

end Node

end MarkdownSpans
