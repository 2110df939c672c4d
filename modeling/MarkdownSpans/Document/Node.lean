import MarkdownSpans.Document.Basic

/-!
# Nodes and their kinds

A node is anything in a document that is rendered by a rule of its own: the document, a block, a
list item or an inline. Each has one of the built-in kinds; nodes of extensions have a name of
their own as well.
-/

namespace MarkdownSpans

/-- The built-in kinds of nodes. -/
inductive NodeKind where
  | document | paragraph | heading | codeBlock | list | listItem | quote | thematicBreak
  | htmlBlock | linkDefinition | linkDefinitionGroup | emptyBlock | literal | emphasis | codeSpan
  | autolink | link | lineBreak | htmlInline | htmlEntity | delimiter | customBlock | customInline
  deriving DecidableEq, Repr, Inhabited

/-- The name of a kind in messages. -/
def NodeKind.name : NodeKind → String
  | document => "document"
  | paragraph => "paragraph"
  | heading => "heading"
  | codeBlock => "code block"
  | list => "list"
  | listItem => "list item"
  | quote => "block quote"
  | thematicBreak => "thematic break"
  | htmlBlock => "html block"
  | linkDefinition => "link reference definition"
  | linkDefinitionGroup => "link reference definition group"
  | emptyBlock => "empty block"
  | literal => "literal"
  | emphasis => "emphasis"
  | codeSpan => "code span"
  | autolink => "autolink"
  | link => "link"
  | lineBreak => "line break"
  | htmlInline => "html inline"
  | htmlEntity => "html entity"
  | delimiter => "delimiter"
  | customBlock => "custom block"
  | customInline => "custom inline"

/-- The kind of a block. -/
def Block.kind : Block → NodeKind
  | paragraph .. => .paragraph
  | heading .. => .heading
  | codeBlock .. => .codeBlock
  | list .. => .list
  | quote .. => .quote
  | thematicBreak .. => .thematicBreak
  | htmlBlock .. => .htmlBlock
  | linkDefinition .. => .linkDefinition
  | linkDefinitionGroup .. => .linkDefinitionGroup
  | emptyBlock .. => .emptyBlock
  | custom .. => .customBlock

/-- The kind of an inline. -/
def Inline.kind : Inline → NodeKind
  | literal .. => .literal
  | emphasis .. => .emphasis
  | codeSpan .. => .codeSpan
  | autolink .. => .autolink
  | link .. => .link
  | lineBreak .. => .lineBreak
  | htmlInline .. => .htmlInline
  | htmlEntity .. => .htmlEntity
  | delimiter .. => .delimiter
  | custom .. => .customInline

/-- A part of a document that is rendered by a rule of its own. -/
inductive Node where
  | document (document : Document)
  | block (block : Block)
  | item (item : ListItem)
  | inline (inline : Inline)

namespace Node

/-- The built-in kind of a node. -/
def kind : Node → NodeKind
  | document _ => .document
  | block b => b.kind
  | item _ => .listItem
  | inline i => i.kind

/-- The name that a node of an extension has. -/
def customName? : Node → Option String
  | block (.custom kind ..) => some kind
  | inline (.custom kind ..) => some kind
  | _ => none

/-- The name of a node in messages: its own, or else that of its kind. -/
def kindName (node : Node) : String := node.customName?.getD node.kind.name

end Node

end MarkdownSpans
