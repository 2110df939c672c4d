import MarkdownSpans.Reader.Block
import MarkdownSpans.Reader.Emphasis
import MarkdownSpans.Tree.Builder

/-!
# Reading markdown

`readMarkdown` gives the events of a markdown text and the ranges of the link definitions in it, and
`Document.parse` the document that is built from them.
-/

namespace MarkdownSpans

/-- The byte offset of each character of a text, and of its end. -/
def byteOffsets (chars : Array Char) : Array Nat :=
  chars.foldl (fun (offsets, n) c => (offsets.push (n + c.utf8Size), n + c.utf8Size)) (#[0], 0) |>.1

/-- What is written into events: a source and the byte offsets of its characters. -/
structure EventSource where
  source : Source
  offsets : Array Nat
  targets : List LinkTarget

namespace EventSource

/-- The bytes of a stretch of the source. -/
def range (e : EventSource) (extent : Extent) : ByteRange :=
  ⟨(e.offsets[extent.start]?).getD 0, (e.offsets[extent.stop]?).getD 0⟩

/-- An event of a stretch of the source. -/
def event (e : EventSource) (event : Event) (extent : Extent) : RangedEvent :=
  ⟨event, e.range extent⟩

/-- The events of a container around events. -/
def around (e : EventSource) (tag : Tag) (extent : Extent) (events : List RangedEvent) :
    List RangedEvent :=
  e.event (.enter tag) extent :: events ++ [e.event (.leave tag.kind) extent]

mutual

/-- The events of a phrase. -/
def phraseEvents (e : EventSource) : Phrase → List RangedEvent
  | .single event extent => [e.event event extent]
  | .within tag extent children => e.around tag extent (phraseListEvents e children)

/-- The events of phrases. -/
def phraseListEvents (e : EventSource) : List Phrase → List RangedEvent
  | [] => []
  | phrase :: rest => phraseEvents e phrase ++ phraseListEvents e rest

end

/-- The events of the text of a block that ends at a position. -/
def textEvents (e : EventSource) (stop : Nat) (text : TokenText) : List RangedEvent :=
  let block : TextSource := ⟨e.source.upTo stop, text.leads, e.targets⟩
  e.phraseListEvents (phrases e.source (pieces block text.tokens))

/-- The event of a part of a raw block, where `raw` says what a stretch of the source is. -/
def partEvent (e : EventSource) (raw : String → Event) : RawPart → RangedEvent
  | .stretch extent => e.event (raw (e.source.text extent.start extent.stop)) extent
  | .columns count pos =>
    e.event (.text (String.ofList (List.replicate count ' '))) ⟨pos, pos⟩

/-- The tag of a container. -/
def shellTag : Shell → Tag
  | .quote => .blockQuote
  | .list _ mark first => .list (if mark == '.' || mark == ')' then some first else none)
  | .item _ => .item

mutual

/-- The events of a block. -/
def blockEvents (e : EventSource) : SourceBlock → List RangedEvent
  | .container shell extent children =>
    e.around (shellTag shell) extent (blockListEvents e children)
  | .paragraph isTight extent text =>
    let events := e.textEvents extent.stop text
    if isTight then events else e.around .paragraph extent events
  | .heading level extent text => e.around (.heading level) extent (e.textEvents extent.stop text)
  | .code info extent parts => e.around (.codeBlock info) extent (parts.map (e.partEvent .text))
  | .html extent parts => e.around .htmlBlock extent (parts.map (e.partEvent .html))
  | .rule extent => [e.event .rule extent]

/-- The events of blocks. -/
def blockListEvents (e : EventSource) : List SourceBlock → List RangedEvent
  | [] => []
  | block :: rest => blockEvents e block ++ blockListEvents e rest

end

end EventSource

/-- The ranges of the link definitions of a markdown text and its events. -/
def readMarkdown (text : String) (strikethrough : Bool) : List ByteRange × List RangedEvent :=
  let source := Source.ofString text
  let layout := Layout.read source strikethrough
  let e : EventSource := ⟨source, byteOffsets source.chars, layout.targets⟩
  (layout.targets.reverse.map (e.range ·.extent), e.blockListEvents layout.reversed.reverse)

/-- The document of a markdown text. -/
def Document.parse (text : String) (options : ParseOptions)
    (registry : EmojiRegistry := knownEmoji) : Document :=
  let (definitions, events) := readMarkdown text options.strikethrough
  (Document.ofEvents? text definitions options events registry).getD ⟨[]⟩

end MarkdownSpans
