import MarkdownSpans.Reader.Layout

/-!
# Reading the blocks of a source

A step reads from the start of a line: it matches the containers that are open, opens new ones, and
reads the leaf after them to its end, over as many lines as it takes. `Layout.read` reads a whole
source.
-/

namespace MarkdownSpans

namespace Layout

/-! ### Paragraphs and headings -/

/-- The tokens of a line whose break is not used, the latest first: a backslash that would keep the
break is text. -/
def lastTokens (line : TokenLine) (reversed : List Token) : List Token :=
  match line.lineBreak with
  | some ⟨.hardBreak true, extent⟩ => Token.pushText extent.start (extent.start + 1) reversed
  | _ => reversed

/-- The block of text that starts at a position and the start of the line behind it, from line `i`
on; the tokens before it are `reversed`. It is a heading if an underline follows it in its
containers. -/
def textBlock (s : Source) (strikethrough : Bool) (leads : List Lead) (start : Nat) :
    Nat → Nat → List Token → SourceBlock × Nat
  | 0, i, reversed => (.paragraph false ⟨start, i⟩ ⟨reversed.reverse, leads⟩, i)
  | fuel + 1, i, before =>
    let line := lineTokens s strikethrough i
    let reversed := line.reversed ++ before
    let text : TokenText := ⟨(lastTokens line reversed).reverse, leads⟩
    let ended := (SourceBlock.paragraph false ⟨start, line.next⟩ text, line.next)
    let (current, c) := matchAll s leads (Cursor.start line.next)
    let (missing, c) := c.skipColumns s 4
    let heading? := if 0 < missing && current then underline? s c.pos else none
    match heading? with
    | some (level, stop) => (.heading level ⟨start, stop⟩ text, stop)
    | none =>
      let content := c.skipAll s
      if (0 < missing && endsParagraph s current c.pos) || content.isAtEnd s then
        ended
      else
        textBlock s strikethrough leads start fuel content.pos
          (line.lineBreak.toList ++ reversed)

/-- The end of the text of a heading that starts with number signs: white space and a closing run
of number signs behind white space are cut off. A text of number signs alone is a closing run. -/
def headingTextEnd? (s : Source) (start stop : Nat) : Option Nat :=
  let limit := s.skipBack (fun c => c == '\n' || c == '\r' || c == ' ') start stop
  let closer := s.skipBack (· == '#') start limit
  if closer ≤ start then none
  else
    let textEnd := s.skipBack (· == ' ') start closer
    if textEnd < closer then some textEnd else some limit

/-- The heading of a level that starts at a position, and the start of the next line. -/
def markedHeading (s : Source) (strikethrough : Bool) (leads : List Lead) (start level : Nat) :
    SourceBlock × Nat :=
  match s.lineEnd? (start + level) with
  | some next => (.heading level ⟨start, next⟩ ⟨[], leads⟩, next)
  | none =>
    let textStart := s.skip isInlineSpace (start + level)
    let line := lineTokens s strikethrough textStart
    let tokens :=
      match lastTokens line line.reversed with
      | [] => []
      | last :: before =>
        match headingTextEnd? s textStart line.next with
        | none => before
        | some textEnd => { last with extent := ⟨last.extent.start, textEnd⟩ } :: before
    (.heading level ⟨start, line.next⟩ ⟨tokens.reverse, leads⟩, line.next)

/-! ### Code and HTML -/

/-- The stretches of a line of a raw block, of which a carriage return before the last character is
no part. -/
def lineStretches (s : Source) (start stop : Nat) : List Extent :=
  if s.has (stop - 2) '\r' && s.any (stop - 1) (·.toNat < 0x80) then
    [⟨start, stop - 2⟩, ⟨stop - 1, stop⟩]
  else
    [⟨start, stop⟩]

/-- Put white space left of a tab behind parts, the latest first. -/
def pushColumns (count pos : Nat) (reversed : List RawPart) : List RawPart :=
  if 0 < count then .columns count pos :: reversed else reversed

/-- Put a stretch behind parts, the latest first. An empty stretch is left out, and one next to
another is joined with it. -/
def pushStretch (reversed : List RawPart) (extent : Extent) : List RawPart :=
  if extent.start < extent.stop then
    match reversed with
    | .stretch last :: rest =>
      if last.stop = extent.start then .stretch ⟨last.start, extent.stop⟩ :: rest
      else .stretch extent :: reversed
    | _ => .stretch extent :: reversed
  else
    reversed

/-- Put a line of code behind parts, the latest first. -/
def pushCodeLine (s : Source) (columns start stop : Nat) (reversed : List RawPart) :
    List RawPart :=
  (lineStretches s start stop).foldl pushStretch (pushColumns columns start reversed)

/-- Put a line of HTML behind parts, the latest first. -/
def pushHtmlLine (s : Source) (columns start stop : Nat) (reversed : List RawPart) :
    List RawPart :=
  ((lineStretches s start stop).map .stretch).reverse ++ pushColumns columns start reversed

/-- The parts of a fenced block of code from line `i` on, the latest first, its end and the start of
the line behind it. -/
def fencedParts (s : Source) (leads : List Lead) (indent : Nat) (fence : FenceMarks) :
    Nat → Nat → List RawPart → List RawPart × Nat × Nat
  | 0, i, reversed => (reversed, i, i)
  | fuel + 1, i, reversed =>
    let (current, c) := matchAll s leads (Cursor.start i)
    if !current then
      (reversed, i, i)
    else
      let (_, content) := c.skipColumns s indent
      let (missing, close) := content.skipColumns s (4 - indent)
      match if 0 < missing then closingFence? s fence close.pos else none with
      | some stop => (reversed, stop, (s.blankLine? stop).getD stop)
      | none =>
        let next := s.nextLine content.pos
        fencedParts s leads indent fence fuel next
          (pushCodeLine s content.pending content.pos next reversed)

/-- The fenced block of code that starts at a position, and the start of the line behind it. -/
def fencedCode (s : Source) (leads : List Lead) (indent start : Nat) (fence : FenceMarks) :
    SourceBlock × Nat :=
  let infoStart := s.skip isInlineSpace (start + fence.count)
  let next := s.nextLine infoStart
  let info := s.text infoStart (s.skipBack isTextSpace infoStart next)
  let (reversed, stop, behind) := fencedParts s leads indent fence (s.size + 2) next []
  (.code (some (unescapeText info)) ⟨start, stop⟩ reversed.reverse, behind)

/-- An indented block of code while it is read. -/
structure IndentedCode where
  /-- The parts so far, the latest first. -/
  reversed : List RawPart := []
  /-- The parts up to the last line that is not blank. -/
  kept : List RawPart := []
  /-- The end of that line. -/
  stop : Nat := 0
  afterBlank : Bool := false

/-- The lines of an indented block of code from line `i` on, and the start of the line behind
them. -/
def indentedLines (s : Source) (leads : List Lead) :
    Nat → Nat → Nat → IndentedCode → IndentedCode × Nat
  | 0, _, i, code => (code, i)
  | fuel + 1, columns, i, code =>
    let next := s.nextLine i
    let reversed := pushCodeLine s columns i next code.reversed
    let code : IndentedCode :=
      if code.afterBlank then { code with reversed }
      else { code with reversed, kept := reversed, stop := next }
    let (current, c) := matchAll s leads (Cursor.start next)
    let (missing, c) := c.skipColumns s 4
    if !current || (0 < missing && !c.isAtEnd s) || s.size ≤ c.pos then
      (code, next)
    else
      indentedLines s leads fuel c.pending c.pos { code with afterBlank := s.isBlankLine c.pos }

/-- Read the indented block of code at a cursor. -/
def readIndentedCode (s : Source) (c : Cursor) (l : Layout) : Layout × Nat :=
  let (code, next) := indentedLines s l.leads (s.size + 1) c.pending c.pos {}
  ({ l.push (.code none ⟨c.pos, code.stop⟩ code.kept.reverse) with afterBlank := code.afterBlank },
    next)

/-- The parts of a block of HTML from line `i` on, the latest first, its end and the start of the
line behind it. The block ends with the line that holds `terminator`, or before a blank line if
there is none. -/
def htmlParts (s : Source) (leads : List Lead) (terminator : Option String) :
    Nat → Nat → Nat → List RawPart → List RawPart × Nat × Nat
  | 0, _, i, reversed => (reversed, i, i)
  | fuel + 1, columns, i, before =>
    let next := s.nextLine i
    let reversed := pushHtmlLine s columns i next before
    let (current, c) := matchAll s leads (Cursor.start next)
    let isLast :=
      match terminator with
      | some text => s.contains i next text.toList
      | none => c.isAtEnd s
    if !current || isLast then
      (reversed, next, next)
    else if s.size ≤ c.pos || (terminator.isNone && s.isBlankLine c.pos) then
      (reversed, c.pos, next)
    else
      htmlParts s leads terminator fuel c.pending c.pos reversed

/-- The block of HTML that starts at a position behind white space of some columns, and the start
of the line behind it. -/
def htmlBlock (s : Source) (leads : List Lead) (terminator : Option String) (columns start : Nat) :
    SourceBlock × Nat :=
  let (reversed, stop, next) := htmlParts s leads terminator (s.size + 1) columns start []
  (.html ⟨start, stop⟩ reversed.reverse, next)

/-! ### Lines -/

/-- Open the containers that start at a cursor, in a line that starts at `lineStart`; gives the
cursor after them, or the start of the next line if an item without content ends the line. -/
def openShells (s : Source) (lineStart : Nat) : Nat → Cursor → Layout → Layout × (Cursor ⊕ Nat)
  | 0, c, l => (l, .inl c)
  | fuel + 1, c, l =>
    let (indent, marker) := c.skipUpTo s 4
    if 4 ≤ indent then
      (l, .inl c)
    else
      match marker.listMarker? s indent with
      | some m =>
        let start := marker.pos - indent
        let l := (l.openList start m.mark m.first).enter (.item m.indent) start
        match s.blankLine? m.content.pos with
        | some next => ({ l with emptyItem := some next }, .inr next)
        | none => openShells s lineStart fuel m.content l
      | none =>
        match marker.quoteMarker? s with
        | some content =>
          openShells s lineStart fuel content ((l.closeList lineStart).enter .quote marker.pos)
        | none => (l, .inl c)

/-- Read the paragraph at position `i` of a line that starts at `lineStart`, or the heading it turns
out to be, and add it. Link definitions at its start are noted and are not part of it; a paragraph
of nothing else is none. Gives the start of the line behind it. -/
def readText (s : Source) (strikethrough : Bool) : Nat → Nat → Nat → Layout → Layout × Nat
  | 0, _, i, l => (l, s.nextLine i)
  | fuel + 1, lineStart, i, l =>
    match linkDefinition? s l.leads i with
    | none =>
      let l := l.closeList i
      let (block, next) := textBlock s strikethrough l.leads i (s.size + 1) i []
      (l.push block, next)
    | some target =>
      let l := l.define target
      let next := (s.blankLine? target.extent.stop).getD target.extent.stop
      let (current, c) := matchAll s l.leads (Cursor.start next)
      let (missing, c) := c.skipColumns s 4
      if (0 < missing && endsParagraph s current c.pos) || s.isBlankLine c.pos then
        (l.closeList lineStart, next)
      else
        readText s strikethrough fuel next (c.skipAll s).pos l

/-- Read the leaf at a cursor, in a line that starts at `lineStart`, and add it; gives the start of
the line behind it. -/
def readLeaf (s : Source) (strikethrough : Bool) (lineStart : Nat) (c : Cursor) (l : Layout) :
    Layout × Nat :=
  let (indent, content) := c.skipUpTo s 4
  let i := content.pos
  let closed := l.closeList lineStart
  let leads := closed.leads
  let add (read : SourceBlock × Nat) : Layout × Nat := (closed.push read.1, read.2)
  let html (terminator : Option String) : Layout × Nat :=
    add (htmlBlock s leads terminator (max c.pending indent) i)
  if 4 ≤ indent then
    closed.readIndentedCode s content
  else if let some terminator := htmlBlockEnd? s i then
    html (some terminator)
  else if startsHtmlBlock s i || isTagLine s i then
    html none
  else if let some stop := thematicBreak? s i then
    add (.rule ⟨i, stop⟩, stop)
  else if let some level := headingLevel? s i then
    add (markedHeading s strikethrough leads i level)
  else if let some fence := openingFence? s i then
    add (fencedCode s leads indent i fence)
  else
    l.readText s strikethrough (s.size + 1) lineStart i

/-- Read the block at the start of a line; gives the start of the line behind it. -/
def readBlock (s : Source) (strikethrough : Bool) (start : Nat) (l : Layout) : Layout × Nat :=
  let (matched, c) := matchLeads s l.leads (Cursor.start start)
  match openShells s start (s.size + 1) c (l.leaveTo matched start) with
  | (l, .inr next) => (l, next)
  | (l, .inl c) =>
    match s.blankLine? c.pos with
    | some next => (l.passBlank, next)
    | none => l.readLeaf s strikethrough start c

/-- Read blocks from the start of a line to the end of the source. -/
def readFrom (s : Source) (strikethrough : Bool) : Nat → Nat → Layout → Layout
  | 0, i, l => l.leaveTo 0 i
  | fuel + 1, i, l =>
    if s.size ≤ i then
      l.leaveTo 0 i
    else
      let (l, next) := l.readBlock s strikethrough i
      readFrom s strikethrough fuel next l

/-- The layout of a source. -/
def read (s : Source) (strikethrough : Bool) : Layout :=
  readFrom s strikethrough (s.size + 1) 0 {}

end Layout

end MarkdownSpans
