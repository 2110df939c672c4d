import MarkdownSpans.Tree.Position

/-!
# Events of a reader

A reader of markdown reports the structure of a source as a list of events, each with the range of
the source it belongs to. A container is entered and left, with the events of its content between.
-/

namespace MarkdownSpans

/-- How a link is written. -/
inductive LinkType where
  | inline
  | reference
  | collapsed
  | shortcut
  | autolink
  | email
  deriving DecidableEq, Repr, Inhabited

/-- What is entered. -/
inductive Tag where
  | paragraph
  | heading (level : Nat)
  | blockQuote
  /-- A block of code, with the text after its fence if it has one. -/
  | codeBlock (info : Option String)
  | htmlBlock
  /-- A list, with the number of its first item if it is ordered. -/
  | list (first : Option Nat)
  | item
  | emphasis
  | strong
  | strikethrough
  | link (type : LinkType) (url title : String)
  | image (type : LinkType) (url title : String)
  /-- A container that documents have no place for. -/
  | other
  deriving DecidableEq, Repr, Inhabited

/-- What is left. -/
inductive TagKind where
  | paragraph | heading | blockQuote | codeBlock | htmlBlock | list | item | emphasis | strong
  | strikethrough | link | image | other
  deriving DecidableEq, Repr, Inhabited

/-- The kind of a tag, which is what leaving it tells. -/
def Tag.kind : Tag → TagKind
  | paragraph => .paragraph
  | heading _ => .heading
  | blockQuote => .blockQuote
  | codeBlock _ => .codeBlock
  | htmlBlock => .htmlBlock
  | list _ => .list
  | item => .item
  | emphasis => .emphasis
  | strong => .strong
  | strikethrough => .strikethrough
  | link .. => .link
  | image .. => .image
  | other => .other

/-- One piece of structure. -/
inductive Event where
  | enter (tag : Tag)
  | leave (kind : TagKind)
  | text (content : String)
  | code (content : String)
  | html (content : String)
  | inlineHtml (content : String)
  | softBreak
  | hardBreak
  | rule
  /-- An event that documents have no place for. -/
  | other
  deriving DecidableEq, Repr, Inhabited

/-- An event and the range it belongs to. -/
structure RangedEvent where
  event : Event
  range : ByteRange
  deriving DecidableEq, Repr, Inhabited

end MarkdownSpans
