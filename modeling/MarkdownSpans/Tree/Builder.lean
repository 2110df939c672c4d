import MarkdownSpans.Emoji
import MarkdownSpans.Tree.Definition
import MarkdownSpans.Tree.Event

/-!
# Building a document from events

A `Builder` is fed the events of a reader one by one and keeps the containers that are open on a
stack. Blank lines, line terminators, markers and link definitions are read from the source by the
ranges of the events; `cursor` is the end of the last block's source, so that the text between it
and the next block is a gap of blank lines. `Document.ofEvents?` builds a whole document; it fails
only if a range does not fit the source.

Containers nested too deep are counted and not opened: their content joins the container around
them. Events nest, so while some are counted every end of such a container closes one of them.

The emoji of shortcodes come from a registry that is given with the options.
-/

namespace MarkdownSpans

/-- How a source is read. -/
structure ParseOptions where
  /-- Whether `~~text~~` is struck through. -/
  strikethrough : Bool := true
  /-- Whether shortcodes and smileys become emoji. -/
  emoji : Bool := true
  /-- How deep containers may be nested; content of deeper ones joins the last that fits. -/
  maxDepth : Nat := 256
  deriving DecidableEq, Repr, Inhabited

/-- How a document is built: as the options say, and with the emoji that a registry has. -/
structure BuildOptions extends ParseOptions where
  registry : EmojiRegistry

/-- A kind of open block container. -/
inductive ContainerKind where
  | document
  | quote (start : Nat)
  /-- A list with its items so far, the latest first. -/
  | list (style : ListStyle) (reversedItems : List ListItem)
  | item

/-- An open block container. -/
structure Container where
  kind : ContainerKind
  /-- Its blocks so far, the latest first. -/
  reversed : List Block := []
  linesBefore : Option (List Line) := none

/-- A kind of open leaf block. -/
inductive LeafKind where
  /-- A paragraph, `implicit` if inlines stand in an item without one. -/
  | paragraph (implicit : Bool)
  | heading (level : Nat)
  | code (text : String) (info : Option String)
  | html (text : String)
  deriving DecidableEq, Repr

/-- A kind of open inline container. -/
inductive FrameKind where
  | emphasis (delimiter : Char) (count : Nat)
  /-- Text after a run of tildes. -/
  | strikethrough (run : Nat)
  | link (type : LinkType) (url title : String) (isImage : Bool)
  deriving DecidableEq, Repr

/-- An open inline container. -/
structure Frame where
  kind : FrameKind
  /-- Its inlines so far, the latest first. -/
  reversed : List Inline := []

/-- An open leaf block. -/
structure Leaf where
  kind : LeafKind
  start : Nat
  /-- The furthest position seen inside the leaf. -/
  stop : Nat
  linesBefore : Option (List Line)
  /-- The inlines directly in the leaf so far, the latest first. -/
  root : List Inline := []
  /-- The open inline containers, innermost first. -/
  frames : List Frame := []

/-- The state of building a document. -/
structure Builder where
  source : List Char
  options : BuildOptions
  /-- The open containers, innermost first. -/
  containers : List Container
  leaf : Option Leaf
  /-- The ranges of the link definitions that are not in the document yet. -/
  definitions : List ByteRange
  cursor : Nat
  skippedContainers : Nat
  skippedFrames : Nat

/-! ### Inlines -/

/-- Put an inline before a reversed list of inlines, joining literals. -/
def pushInline (inline : Inline) : List Inline → List Inline
  | .literal previous :: rest =>
    match inline with
    | .literal next => .literal (previous ++ next) :: rest
    | inline => inline :: .literal previous :: rest
  | reversed => inline :: reversed

/-- Put inlines before a reversed list one after another. -/
def pushInlines (inlines reversed : List Inline) : List Inline :=
  inlines.foldl (fun reversed inline => pushInline inline reversed) reversed

/-- The address of an email link. -/
def emailAddress (url : String) : String :=
  String.ofList (dropLead "mailto:".toList url.toList)

/-- What an inline container becomes when it is left. Only double tildes strike through; the tildes
of other runs stay as text. -/
def FrameKind.close (children : List Inline) : FrameKind → List Inline
  | emphasis delimiter count => [.emphasis delimiter count children]
  | strikethrough run =>
    if run = 2 then [.emphasis '~' 2 children]
    else
      let marks := String.ofList (List.replicate run '~')
      [.delimiter marks children, .literal marks]
  | link .autolink url _ _ => [.autolink url false]
  | link .email url _ _ => [.autolink (emailAddress url) true]
  | link _ url title isImage =>
    [.link url (if title.isEmpty then none else some title) isImage children]

namespace Leaf

/-- Add an inline to the innermost container of a leaf. -/
def push (inline : Inline) (leaf : Leaf) : Leaf :=
  match leaf.frames with
  | [] => { leaf with root := pushInline inline leaf.root }
  | frame :: rest =>
    { leaf with frames := { frame with reversed := pushInline inline frame.reversed } :: rest }

/-- Enter an inline container. -/
def openFrame (kind : FrameKind) (leaf : Leaf) : Leaf :=
  { leaf with frames := { kind } :: leaf.frames }

/-- Leave the innermost inline container, if there is one. -/
def closeFrame (leaf : Leaf) : Leaf :=
  match leaf.frames with
  | [] => leaf
  | frame :: rest =>
    (frame.kind.close frame.reversed.reverse).foldl (fun leaf inline => leaf.push inline)
      { leaf with frames := rest }

/-- The inlines of a leaf with these in it when some more are added to the innermost of its open
inline containers and all of them, innermost first, are left. -/
def foldFrames (root : List Inline) : List Inline → List Frame → List Inline
  | added, [] => (pushInlines added root).reverse
  | added, frame :: rest =>
    foldFrames root (frame.kind.close (pushInlines added frame.reversed).reverse) rest

/-- The inlines of a leaf, its open inline containers left. -/
def inlines (leaf : Leaf) : List Inline := foldFrames leaf.root [] leaf.frames

end Leaf

namespace Builder

/-! ### Blocks and gaps -/

/-- The state before the first event. -/
def start (source : List Char) (definitions : List ByteRange) (options : BuildOptions) :
    Builder where
  source := source
  options := options
  containers := [{ kind := .document }]
  leaf := none
  definitions := definitions
  cursor := 0
  skippedContainers := 0
  skippedFrames := 0

/-- Add a block to the innermost container. -/
def pushBlock (block : Block) (b : Builder) : Builder :=
  match b.containers with
  | [] => b
  | c :: rest => { b with containers := { c with reversed := block :: c.reversed } :: rest }

/-- The lines of the source between the line of a cursor and a position. Inside containers only
their terminators are kept, since the leads of the containers are written again. -/
def gapFrom? (source : List Char) (nested : Bool) (cursor stop : Nat) : Option (List Line) := do
  let before ← takeBytes source cursor
  let start ←
    if (before.getLast?.map isLineEnd).getD true then some cursor
    else (lineEnd? source cursor).map (·.stop)
  if stop ≤ start then
    some []
  else
    let between ← sliceChars source start stop
    let lines := Line.split (String.ofList between)
    some (if nested then lines.map fun line => .blank line.newline else lines)

/-- Whether a container other than the outermost one is open. -/
def isNested (b : Builder) : Bool := 1 < b.containers.length

/-- The blank lines between the last block and a position. -/
def gap? (b : Builder) (stop : Nat) : Option (List Line) :=
  gapFrom? b.source b.isNested b.cursor stop

/-- Lines as trivia: none at all are not recorded. -/
def recorded : List Line → Option (List Line)
  | [] => none
  | lines => some lines

/-- The trivia of a block with these lines before it. -/
def tracked (linesBefore : Option (List Line)) : Trivia :=
  { linesBefore, linesAfter := some [] }

/-- The definitions that start before a limit, the ranges that remain, and the cursor behind the
last of them. -/
def takeDefinitions (source : List Char) (nested : Bool) (limit : Option Nat) :
    List ByteRange → Nat → Option (List LinkDefinition × List ByteRange × Nat)
  | [], cursor => some ([], [], cursor)
  | range :: rest, cursor =>
    if limit.all (range.start < ·) then do
      let lineStart ← lineStart? source range.start
      let lines ← gapFrom? source nested cursor lineStart
      let last ← blockEnd? source range
      let raw ← sliceChars source range.start last.contentStop
      let definition := LinkDefinition.read (String.ofList raw) last.newline (recorded lines)
      let (definitions, ranges, cursor) ← takeDefinitions source nested limit rest last.stop
      some (definition :: definitions, ranges, cursor)
    else
      some ([], range :: rest, cursor)

/-- Put the definitions that start before a limit into the innermost container, as one group. -/
def flushDefinitions (limit : Option Nat) (b : Builder) : Option Builder := do
  let (definitions, ranges, cursor) ←
    takeDefinitions b.source b.isNested limit b.definitions b.cursor
  let b := { b with definitions := ranges, cursor }
  some (if definitions.isEmpty then b
    else b.pushBlock (.linkDefinitionGroup definitions .tracked))

/-! ### Leaves -/

/-- Open a leaf block. -/
def openLeaf (kind : LeafKind) (start : Nat) (linesBefore : Option (List Line)) (b : Builder) :
    Builder :=
  { b with leaf := some { kind, start, stop := start, linesBefore } }

/-- Close the open leaf as a paragraph that reaches to a position at least. -/
def closeParagraph (stop : Nat) (b : Builder) : Option Builder :=
  match b.leaf with
  | none => some b
  | some leaf => do
    let last ← blockEnd? b.source ⟨leaf.start, max stop leaf.stop⟩
    let ending := if last.newline.isAbsent then [] else [Inline.lineBreak last.newline false]
    let b := { b with leaf := none }.pushBlock
      (.paragraph (leaf.inlines ++ ending) (tracked leaf.linesBefore))
    some { b with cursor := last.stop }

/-- Close the open leaf if it is a paragraph that inlines of an item stand in. -/
def closeImplicit (b : Builder) : Option Builder :=
  match b.leaf with
  | some { kind := .paragraph true, stop, .. } => b.closeParagraph stop
  | _ => some b

/-- Prepare for a block: close an implicit paragraph, put the definitions before the block into
the document and collect the blank lines since the last block. -/
def beginBlock (start : Nat) (b : Builder) : Option (Option (List Line) × Builder) := do
  let b ← b.closeImplicit
  let b ← b.flushDefinitions (some start)
  let lineStart ← lineStart? b.source start
  let lines ← b.gap? lineStart
  some (recorded lines, { b with cursor := max b.cursor lineStart })

/-- Begin a block and open a leaf for it. -/
def beginLeaf (kind : LeafKind) (start : Nat) (b : Builder) : Option Builder := do
  let (linesBefore, b) ← b.beginBlock start
  some (b.openLeaf kind start linesBefore)

/-- Change the open leaf. -/
def mapLeaf (f : Leaf → Leaf) (b : Builder) : Builder := { b with leaf := b.leaf.map f }

/-- Have a leaf for an inline, an implicit paragraph if none is open, and extend it over the
range of the inline. -/
def ensureLeaf (range : ByteRange) (b : Builder) : Option Builder := do
  let b ←
    match b.leaf with
    | none => b.beginLeaf (.paragraph true) range.start
    | some _ => some b
  some (b.mapLeaf fun leaf => { leaf with stop := max leaf.stop range.stop })

/-- Add an inline. -/
def addInline (inline : Inline) (range : ByteRange) (b : Builder) : Option Builder := do
  let b ← b.ensureLeaf range
  some (b.mapLeaf (·.push inline))

/-- Whether a text is spelled as an entity reference. -/
def isEntity (raw : List Char) : Bool := raw.head? == some '&' && raw.getLast? == some ';'

/-- The inline for a run of text with its spelling in the source. -/
def textInline (options : BuildOptions) (content : String) (raw before : List Char) : Inline :=
  if raw ≠ content.toList ∧ isEntity raw then
    .htmlEntity (String.ofList raw) content
  else if options.emoji then
    .literal (replaceEmoji options.registry content ((before.getLast?.map isSpace).getD true))
  else
    .literal content

/-- Add a run of text: to the text of a block of code or markup, or as an inline. -/
def addText (content : String) (range : ByteRange) (b : Builder) : Option Builder :=
  match b.leaf with
  | some { kind := .code text info, .. } =>
    some (b.mapLeaf ({ · with kind := .code (text ++ content) info }))
  | some { kind := .html text, .. } =>
    some (b.mapLeaf ({ · with kind := .html (text ++ content) }))
  | _ => do
    let raw ← sliceChars b.source range.start range.stop
    let before ← takeBytes b.source range.start
    b.addInline (textInline b.options content raw before) range

/-- Add raw markup: to the text of a block of markup, or as an inline. -/
def addHtml (content : String) (range : ByteRange) (b : Builder) : Option Builder :=
  match b.leaf with
  | some { kind := .html text, .. } =>
    some (b.mapLeaf ({ · with kind := .html (text ++ content) }))
  | _ => b.addInline (.htmlInline content) range

/-- Add a line break. -/
def addBreak (hard : Bool) (range : ByteRange) (b : Builder) : Option Builder := do
  let raw ← sliceChars b.source range.start range.stop
  b.addInline (.lineBreak (breakNewline raw) hard) range

/-- Add a thematic break. -/
def addRule (range : ByteRange) (b : Builder) : Option Builder := do
  let (linesBefore, b) ← b.beginBlock range.start
  let last ← blockEnd? b.source range
  let content ← sliceChars b.source range.start last.contentStop
  let b := b.pushBlock
    (.thematicBreak (String.ofList content) last.newline (tracked linesBefore))
  some { b with cursor := last.stop }

/-- Enter an inline container, unless it is nested too deep. -/
def enterFrame (kind : FrameKind) (range : ByteRange) (b : Builder) : Option Builder := do
  let b ← b.ensureLeaf range
  if 0 < b.skippedFrames || b.leaf.any (b.options.maxDepth ≤ ·.frames.length) then
    some { b with skippedFrames := b.skippedFrames + 1 }
  else
    some (b.mapLeaf (·.openFrame kind))

/-- Leave an inline container. -/
def leaveFrame (b : Builder) : Builder :=
  if 0 < b.skippedFrames then { b with skippedFrames := b.skippedFrames - 1 }
  else b.mapLeaf (·.closeFrame)

/-- Close a heading. A leaf of another kind is dropped. -/
def closeHeading (range : ByteRange) (b : Builder) : Option Builder :=
  match b.leaf with
  | some { kind := .heading level, linesBefore, root, frames, .. } => do
    let last ← blockEnd? b.source range
    let b := { b with leaf := none }.pushBlock
      (.heading level (Leaf.foldFrames root [] frames) last.newline (tracked linesBefore))
    some { b with cursor := last.stop }
  | _ => some { b with leaf := none }

/-- The text of a line without the markers of quotes and white space around it. -/
def closingCandidate (line : List Char) : List Char :=
  line.dropWhile fun c => c == '>' || isSpace c

/-- Whether a line is nothing but at least three marks of a fence, and white space. -/
def isClosingFence (mark : Char) (candidate : List Char) : Bool :=
  let marks := dropRightWhile isSpace candidate
  3 ≤ byteLength marks && marks.all (· == mark)

/-- The fence lines of a block of code. -/
def fence? (source : List Char) (info : String) (start : Nat) (last : LineEnd) :
    Option Fence := do
  let first ← lineEnd? source start
  let opening ← sliceChars source start first.contentStop
  let mark := (opening.dropWhile isSpace).head?.getD '\x60'
  let lastStart ← lineStart? source last.contentStop
  let closing ←
    if start < lastStart then do
      let line ← sliceChars source lastStart last.contentStop
      let candidate := closingCandidate line
      some (if isClosingFence mark candidate then
        some ⟨String.ofList candidate, last.newline⟩ else none)
    else
      some none
  some ⟨info, ⟨String.ofList opening, first.newline⟩, closing⟩

/-- Close a block of code. A leaf of another kind is dropped. -/
def closeCode (range : ByteRange) (b : Builder) : Option Builder :=
  match b.leaf with
  | some { kind := .code text info, linesBefore, .. } => do
    let last ← blockEnd? b.source range
    let fence ←
      match info with
      | some info => (fence? b.source info range.start last).map some
      | none => some none
    let b := { b with leaf := none }.pushBlock
      (.codeBlock (Line.split text) fence (tracked linesBefore))
    some { b with cursor := last.stop }
  | _ => some { b with leaf := none }

/-- Close a block of markup. A leaf of another kind is dropped. -/
def closeHtml (range : ByteRange) (b : Builder) : Option Builder :=
  match b.leaf with
  | some { kind := .html text, linesBefore, .. } => do
    let b := { b with leaf := none }.pushBlock
      (.htmlBlock (Line.split text) (tracked linesBefore))
    let last ← blockEnd? b.source range
    some { b with cursor := last.stop }
  | _ => some { b with leaf := none }

/-! ### Containers -/

/-- The number of containers around the next block. -/
def depth (b : Builder) : Nat := b.containers.length - 1

/-- Whether a container that takes some levels of nesting still fits. -/
def fits (levels : Nat) (b : Builder) : Bool :=
  b.skippedContainers == 0 && b.depth + levels ≤ b.options.maxDepth

/-- Count a container that is not opened. -/
def skipContainer (b : Builder) : Builder :=
  { b with skippedContainers := b.skippedContainers + 1 }

/-- Open a block container. -/
def pushContainer (kind : ContainerKind) (linesBefore : Option (List Line)) (b : Builder) :
    Builder :=
  { b with containers := { kind, linesBefore } :: b.containers }

/-- Enter a quote. -/
def enterQuote (range : ByteRange) (b : Builder) : Option Builder :=
  if b.fits 1 then do
    let (linesBefore, b) ← b.beginBlock range.start
    some (b.pushContainer (.quote range.start) linesBefore)
  else
    some b.skipContainer

/-- The style of a list whose first marker starts a text. -/
def listStyle (first : Option Nat) (rest : List Char) : ListStyle :=
  let marker := rest.dropWhile fun c => c == ' ' || c == '\t' || c == '>'
  match first with
  | none =>
    { bullet := (marker.head?.filter fun c => c == '-' || c == '*' || c == '+').getD '-' }
  | some number =>
    let digits := marker.takeWhile Char.isDigit
    let delimiter := (marker.dropWhile Char.isDigit).head?.filter fun c => c == '.' || c == ')'
    { ordered := true
      bullet := '1'
      delimiter := delimiter.getD '.'
      start := some (if digits.isEmpty then toString number else String.ofList digits) }

/-- Enter a list; there must be room for its items too. -/
def enterList (first : Option Nat) (range : ByteRange) (b : Builder) : Option Builder :=
  if b.fits 2 then do
    let (linesBefore, b) ← b.beginBlock range.start
    let rest ← dropBytes b.source range.start
    some (b.pushContainer (.list (listStyle first rest) []) linesBefore)
  else
    some b.skipContainer

/-- Enter an item. -/
def enterItem (range : ByteRange) (b : Builder) : Option Builder :=
  if 0 < b.skippedContainers then
    some b.skipContainer
  else do
    let b ← b.closeImplicit
    some ({ b with cursor := range.start }.pushContainer .item none)

/-- Mark the list loose whose item is the innermost container. -/
def markLoose (b : Builder) : Builder :=
  match b.containers with
  | item@{ kind := .item, .. } :: outer@{ kind := .list style items, .. } :: rest =>
    { b with containers :=
        item :: { outer with kind := .list { style with loose := true } items } :: rest }
  | _ => b

/-- Enter a paragraph. -/
def enterParagraph (range : ByteRange) (b : Builder) : Option Builder := do
  let (linesBefore, b) ← b.beginBlock range.start
  some (b.markLoose.openLeaf (.paragraph false) range.start linesBefore)

/-- Record lines after the last of some blocks, the latest of which comes first. -/
def setLinesAfter (lines : List Line) : List Block → List Block
  | [] => []
  | last :: rest => last.withTrivia { last.trivia with linesAfter := some lines } :: rest

/-- The lines of a quote that starts at a column of its first line. A line too short for the column
is read from its first character that is not blank. -/
def quoteLines (column : Nat) (text : List Char) : List QuoteLine :=
  (Line.splitChars text).map fun (chars, newline) =>
    QuoteLine.read ((dropBytes chars column).getD (chars.dropWhile isSpace)) newline

/-- Leave a quote; trailing blank lines of the quote belong to its last block. -/
def leaveQuote (range : ByteRange) (b : Builder) : Option Builder := do
  let b ← b.closeImplicit
  let b ← b.flushDefinitions (some range.stop)
  let last ← blockEnd? b.source range
  let trailing ← b.gap? last.stop
  match b.containers with
  | [] => some b
  | container :: rest =>
    let b := { b with containers := rest }
    match container.kind with
    | .quote start =>
      let blocks :=
        if trailing.isEmpty then container.reversed else setLinesAfter trailing container.reversed
      let lineStart ← lineStart? b.source start
      let text ← sliceChars b.source lineStart last.stop
      let b := b.pushBlock
        (.quote (quoteLines (start - lineStart) text) blocks.reverse
          (tracked container.linesBefore))
      some { b with cursor := max b.cursor last.stop }
    | _ => some b

/-- Leave an item. -/
def leaveItem (range : ByteRange) (b : Builder) : Option Builder := do
  let b ← b.closeImplicit
  let b ← b.flushDefinitions (some range.stop)
  match b.containers with
  | [] => some b
  | container :: outer@{ kind := .list style items, .. } :: rest =>
    let item := ListItem.mk container.reversed.reverse .tracked
    some { b with containers := { outer with kind := .list style (item :: items) } :: rest }
  | _ :: rest => some { b with containers := rest }

/-- Leave a list. -/
def leaveList (b : Builder) : Builder :=
  match b.containers with
  | [] => b
  | { kind := .list style items, linesBefore, .. } :: rest =>
    { b with containers := rest }.pushBlock (.list style items.reverse (tracked linesBefore))
  | _ :: rest => { b with containers := rest }

/-! ### Events -/

/-- Whether leaving a container of this kind may close a block container that was counted. -/
def isBlockContainer : TagKind → Bool
  | .blockQuote | .list | .item => true
  | _ => false

/-- The state after a container is entered. -/
def enter (tag : Tag) (range : ByteRange) (b : Builder) : Option Builder :=
  match tag with
  | .paragraph => b.enterParagraph range
  | .heading level => b.beginLeaf (.heading level) range.start
  | .codeBlock info => b.beginLeaf (.code "" info) range.start
  | .htmlBlock => b.beginLeaf (.html "") range.start
  | .blockQuote => b.enterQuote range
  | .list first => b.enterList first range
  | .item => b.enterItem range
  | .emphasis => do
    let rest ← dropBytes b.source range.start
    b.enterFrame (.emphasis (rest.head?.getD '*') 1) range
  | .strong => do
    let rest ← dropBytes b.source range.start
    b.enterFrame (.emphasis (rest.head?.getD '*') 2) range
  | .strikethrough => do
    let rest ← dropBytes b.source range.start
    b.enterFrame (.strikethrough (rest.takeWhile (· == '~')).length) range
  | .link type url title => b.enterFrame (.link type url title false) range
  | .image type url title => b.enterFrame (.link type url title true) range
  | .other => some b

/-- The state after a container is left. -/
def leave (kind : TagKind) (range : ByteRange) (b : Builder) : Option Builder :=
  if isBlockContainer kind && 0 < b.skippedContainers then
    some { b with skippedContainers := b.skippedContainers - 1 }
  else
    match kind with
    | .paragraph => b.closeParagraph range.stop
    | .heading => b.closeHeading range
    | .codeBlock => b.closeCode range
    | .htmlBlock => b.closeHtml range
    | .blockQuote => b.leaveQuote range
    | .list => some b.leaveList
    | .item => b.leaveItem range
    | .emphasis | .strong | .strikethrough | .link | .image => some b.leaveFrame
    | .other => some b

/-- The state after an event. -/
def step (b : Builder) (e : RangedEvent) : Option Builder :=
  match e.event with
  | .enter tag => b.enter tag e.range
  | .leave kind => b.leave kind e.range
  | .text content => b.addText content e.range
  | .code content => b.addInline (.codeSpan content) e.range
  | .html content => b.addHtml content e.range
  | .inlineHtml content => b.addInline (.htmlInline content) e.range
  | .softBreak => b.addBreak false e.range
  | .hardBreak => b.addBreak true e.range
  | .rule => b.addRule e.range
  | .other => some b

/-- The state after a list of events. -/
def run (b : Builder) (events : List RangedEvent) : Option Builder := events.foldlM step b

@[simp] theorem run_nil (b : Builder) : b.run [] = some b := rfl

theorem run_cons (b : Builder) (e : RangedEvent) (events : List RangedEvent) :
    b.run (e :: events) = (b.step e).bind (·.run events) := List.foldlM_cons

theorem run_append (b : Builder) (events events' : List RangedEvent) :
    b.run (events ++ events') = (b.run events).bind (·.run events') := List.foldlM_append

/-- The blocks of the containers still open, the latest first: what stands in inner containers
follows what stands in outer ones. -/
def openBlocks (b : Builder) : List Block := b.containers.flatMap (·.reversed)

/-- The document built, with the blank lines at the end of the source after its last block. -/
def finish (b : Builder) : Option Document := do
  let b ← b.closeImplicit
  let b ← b.flushDefinitions none
  let trailing ← gapFrom? b.source false b.cursor (byteLength b.source)
  let blocks := b.openBlocks
  some ⟨(if trailing.isEmpty then blocks
    else if blocks.isEmpty then [.emptyBlock { linesAfter := some trailing }]
    else setLinesAfter trailing blocks).reverse⟩

end Builder

/-- The document of a list of events, with the emoji of a registry; none if a range does not fit the
source. The ranges of the link definitions are sorted by their starts. -/
def Document.ofEvents? (source : String) (definitions : List ByteRange) (options : ParseOptions)
    (events : List RangedEvent) (registry : EmojiRegistry := knownEmoji) : Option Document := do
  let b ← (Builder.start source.toList definitions { options with registry }).run events
  b.finish

end MarkdownSpans
