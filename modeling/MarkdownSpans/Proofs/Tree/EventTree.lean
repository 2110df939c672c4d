import Mathlib.Data.List.Forall2
import MarkdownSpans.Proofs.Tree.Place

/-!
# Balanced events as trees

Events in which every container that is entered is left again are those of a tree: an `InlineTree`
for what stands in a line, a `BlockTree` for blocks. The events of a tree are its nodes written one
after another; its translation is the document that one reads off the tree node by node, with no
stack and no state.
-/

namespace MarkdownSpans

/-! ### Inline events -/

/-- An inline container that may be entered. -/
inductive InlineTag where
  | emphasis
  | strong
  | strikethrough
  | link (isImage : Bool) (type : LinkType) (url title : String)

/-- The tag of an inline container. -/
def InlineTag.tag : InlineTag → Tag
  | emphasis => .emphasis
  | strong => .strong
  | strikethrough => .strikethrough
  | link false type url title => .link type url title
  | link true type url title => .image type url title

/-- An inline event, or an inline container with the events in it. -/
inductive InlineTree where
  | text (content : String) (range : ByteRange)
  | code (content : String) (range : ByteRange)
  | markup (tag : String) (range : ByteRange)
  | lineBreak (hard : Bool) (range : ByteRange)
  | container (tag : InlineTag) (entered : ByteRange) (children : List InlineTree)
      (left : ByteRange)

namespace InlineTree

mutual

/-- The events of a tree. -/
def events : InlineTree → List RangedEvent
  | text content range => [⟨.text content, range⟩]
  | code content range => [⟨.code content, range⟩]
  | markup tag range => [⟨.inlineHtml tag, range⟩]
  | lineBreak hard range => [⟨if hard then .hardBreak else .softBreak, range⟩]
  | container tag entered children left =>
    ⟨.enter tag.tag, entered⟩ :: (listEvents children ++ [⟨.leave tag.tag.kind, left⟩])

/-- The events of trees one after another. -/
def listEvents : List InlineTree → List RangedEvent
  | [] => []
  | t :: rest => t.events ++ listEvents rest

end

end InlineTree

/-! ### Inlines -/

/-- Put an inline before others, joining literals. -/
def prependInline : Inline → List Inline → List Inline
  | .literal a, .literal b :: rest => .literal (a ++ b) :: rest
  | i, rest => i :: rest

/-- Inlines with each run of literals made one. -/
def joinLiterals (is : List Inline) : List Inline := is.foldr prependInline []

/-- What stands for an inline container that begins at a place of the source. An autolink stands for
itself in place of what is in it; only double tildes strike through, and a run of others stays as
text around what is in it. -/
def InlineTag.inlines (rest : List Char) (children : List Inline) : InlineTag → List Inline
  | emphasis => [.emphasis (rest.head?.getD '*') 1 children]
  | strong => [.emphasis (rest.head?.getD '*') 2 children]
  | strikethrough =>
    let run := rest.takeWhile (· == '~')
    if run.length = 2 then [.emphasis '~' 2 children]
    else [.delimiter (String.ofList run) children, .literal (String.ofList run)]
  | link _ .autolink url _ => [.autolink url false]
  | link _ .email url _ => [.autolink (emailAddress url) true]
  | link isImage _ url title =>
    [.link url (if title = "" then none else some title) isImage children]

namespace InlineTree

/-- The source from a position on. -/
def sourceFrom (source : List Char) (position : Nat) : List Char :=
  (dropBytes source position).getD []

/-- The source up to a position. -/
def sourceTo (source : List Char) (position : Nat) : List Char :=
  (takeBytes source position).getD []

/-- The piece of the source in a range. -/
def sourceIn (source : List Char) (range : ByteRange) : List Char :=
  (sliceChars source range.start range.stop).getD []

mutual

/-- The inlines of a tree, with those of a container joined in it. -/
def inlines (source : List Char) (options : BuildOptions) : InlineTree → List Inline
  | text content range =>
    [Builder.textInline options content (sourceIn source range) (sourceTo source range.start)]
  | code content _ => [.codeSpan content]
  | markup tag _ => [.htmlInline tag]
  | lineBreak hard range => [.lineBreak (breakNewline (sourceIn source range)) hard]
  | container tag entered children _ =>
    tag.inlines (sourceFrom source entered.start)
      (joinLiterals (listInlines source options children))

/-- The inlines of trees one after another. -/
def listInlines (source : List Char) (options : BuildOptions) : List InlineTree → List Inline
  | [] => []
  | t :: rest => t.inlines source options ++ listInlines source options rest

end

/-- The ranges that are looked up fit the source, and at most `n` containers are nested. -/
inductive Fits (source : List Char) : Nat → InlineTree → Prop where
  | text {n : Nat} {range : ByteRange} (content : String) (h : range.Fits source) :
    Fits source n (.text content range)
  | code {n : Nat} {range : ByteRange} (content : String) (h : range.Fits source) :
    Fits source n (.code content range)
  | markup {n : Nat} {range : ByteRange} (tag : String) (h : range.Fits source) :
    Fits source n (.markup tag range)
  | lineBreak {n : Nat} {range : ByteRange} (hard : Bool) (h : range.Fits source) :
    Fits source n (.lineBreak hard range)
  | container {n : Nat} {entered : ByteRange} {children : List InlineTree} (tag : InlineTag)
    (left : ByteRange) (hentered : entered.Fits source)
    (h : ∀ t ∈ children, Fits source n t) :
    Fits source (n + 1) (.container tag entered children left)

end InlineTree

/-! ### Block events -/

mutual

/-- A block with the events in it. Containers are entered and left at ranges of their own. -/
inductive BlockTree where
  | paragraph (entered : ByteRange) (content : List InlineTree) (left : ByteRange)
  | heading (level : Nat) (entered : ByteRange) (content : List InlineTree) (left : ByteRange)
  /-- Code, with the text after its fence if it has one. -/
  | code (info : Option String) (entered : ByteRange) (texts : List (String × ByteRange))
      (left : ByteRange)
  /-- Raw markup; each piece is reported as text or as markup. -/
  | markup (entered : ByteRange) (pieces : List (Bool × String × ByteRange)) (left : ByteRange)
  | rule (range : ByteRange)
  | quote (entered : ByteRange) (children : List BlockTree) (left : ByteRange)
  | list (first : Option Nat) (entered : ByteRange) (items : List ItemTree) (left : ByteRange)

/-- An item of a list. -/
inductive ItemTree where
  | mk (entered : ByteRange) (parts : List ItemPart) (left : ByteRange)

/-- A part of an item: a block, or something that stands in a line by itself. -/
inductive ItemPart where
  | block (tree : BlockTree)
  | inline (tree : InlineTree)

end

namespace ItemTree

/-- The range an item is entered with. -/
def entered : ItemTree → ByteRange
  | mk entered _ _ => entered

/-- The parts of an item. -/
def parts : ItemTree → List ItemPart
  | mk _ parts _ => parts

end ItemTree

/-- Whether a block is a paragraph. -/
def BlockTree.isParagraph : BlockTree → Bool
  | paragraph .. => true
  | _ => false

/-- Whether a part is a paragraph that was reported as one. -/
def ItemPart.isParagraph : ItemPart → Bool
  | block t => t.isParagraph
  | inline _ => false

/-- Whether an item has a paragraph directly in it that was reported as one. -/
def ItemTree.hasParagraph (item : ItemTree) : Bool := item.parts.any (·.isParagraph)

namespace BlockTree

/-- An event that adds to a block of markup. -/
def markupEvent : Bool × String × ByteRange → RangedEvent
  | (true, content, range) => ⟨.html content, range⟩
  | (false, content, range) => ⟨.text content, range⟩

mutual

/-- The events of a block. -/
def events : BlockTree → List RangedEvent
  | paragraph entered content left =>
    ⟨.enter .paragraph, entered⟩ ::
      (InlineTree.listEvents content ++ [⟨.leave .paragraph, left⟩])
  | heading level entered content left =>
    ⟨.enter (.heading level), entered⟩ ::
      (InlineTree.listEvents content ++ [⟨.leave .heading, left⟩])
  | code info entered texts left =>
    ⟨.enter (.codeBlock info), entered⟩ ::
      (texts.map (fun t => ⟨.text t.1, t.2⟩) ++ [⟨.leave .codeBlock, left⟩])
  | markup entered pieces left =>
    ⟨.enter .htmlBlock, entered⟩ :: (pieces.map markupEvent ++ [⟨.leave .htmlBlock, left⟩])
  | rule range => [⟨.rule, range⟩]
  | quote entered children left =>
    ⟨.enter .blockQuote, entered⟩ :: (listEvents children ++ [⟨.leave .blockQuote, left⟩])
  | list first entered items left =>
    ⟨.enter (.list first), entered⟩ :: (itemsEvents items ++ [⟨.leave .list, left⟩])

/-- The events of blocks one after another. -/
def listEvents : List BlockTree → List RangedEvent
  | [] => []
  | t :: rest => t.events ++ listEvents rest

/-- The events of an item. -/
def itemEvents : ItemTree → List RangedEvent
  | .mk entered parts left =>
    ⟨.enter .item, entered⟩ :: (partsEvents parts ++ [⟨.leave .item, left⟩])

/-- The events of items one after another. -/
def itemsEvents : List ItemTree → List RangedEvent
  | [] => []
  | item :: rest => itemEvents item ++ itemsEvents rest

/-- The events of a part of an item. -/
def partEvents : ItemPart → List RangedEvent
  | .block t => t.events
  | .inline t => t.events

/-- The events of parts one after another. -/
def partsEvents : List ItemPart → List RangedEvent
  | [] => []
  | part :: rest => partEvents part ++ partsEvents rest

end

/-! ### Blocks -/

/-- The end of the last line of a range. -/
def lastLine (source : List Char) (range : ByteRange) : LineEnd :=
  (blockEnd? source range).getD ⟨0, .absent, 0⟩

/-- The paragraph that some inline events stand in, if there are any. -/
def flush (source : List Char) (options : BuildOptions) : List InlineTree → List Block
  | [] => []
  | run => [.paragraph (joinLiterals (InlineTree.listInlines source options run)) {}]

mutual

/-- The block that a tree stands for. -/
def block (source : List Char) (options : BuildOptions) : BlockTree → Block
  | paragraph _ content _ =>
    .paragraph (joinLiterals (InlineTree.listInlines source options content)) {}
  | heading level _ content left =>
    .heading level (joinLiterals (InlineTree.listInlines source options content))
      (lastLine source left).newline {}
  | code info _ texts _ =>
    .codeBlock (Line.split (String.join (texts.map (·.1))))
      (info.map fun info => ⟨info, .blank .absent, none⟩) {}
  | markup _ pieces _ => .htmlBlock (Line.split (String.join (pieces.map (·.2.1)))) {}
  | rule range =>
    let last := lastLine source range
    .thematicBreak
      (String.ofList (InlineTree.sourceIn source ⟨range.start, last.contentStop⟩)) last.newline {}
  | quote _ children _ => .quote [] (blocks source options children) {}
  | list first _ entries _ =>
    .list { ordered := first.isSome, loose := entries.any (·.hasParagraph) }
      (items source options entries) {}

/-- The blocks that trees stand for. -/
def blocks (source : List Char) (options : BuildOptions) : List BlockTree → List Block
  | [] => []
  | t :: rest => t.block source options :: blocks source options rest

/-- The item that a tree stands for. -/
def item (source : List Char) (options : BuildOptions) : ItemTree → ListItem
  | .mk _ parts _ => .mk (partBlocks source options [] parts) {}

/-- The items that trees stand for. -/
def items (source : List Char) (options : BuildOptions) : List ItemTree → List ListItem
  | [] => []
  | entry :: rest => item source options entry :: items source options rest

/-- The blocks of an item from some part on, where the inline events in `run` stand right before it:
each longest run of inline events is a paragraph. -/
def partBlocks (source : List Char) (options : BuildOptions) (run : List InlineTree) :
    List ItemPart → List Block
  | [] => flush source options run
  | .inline t :: rest => partBlocks source options (run ++ [t]) rest
  | .block t :: rest =>
    flush source options run ++ t.block source options :: partBlocks source options [] rest

end

/-- The ranges that are looked up fit the source, no quote is left before it is entered, at most `n`
block containers are nested and at most `m` inline containers in a leaf. -/
inductive Fits (source : List Char) (m : Nat) : Nat → BlockTree → Prop where
  | paragraph {n : Nat} {entered left : ByteRange} {content : List InlineTree}
    (hentered : entered.Fits source) (hleft : left.Fits source)
    (h : ∀ t ∈ content, InlineTree.Fits source m t) :
    Fits source m n (.paragraph entered content left)
  | heading {n : Nat} {entered left : ByteRange} {content : List InlineTree} (level : Nat)
    (hentered : entered.Fits source) (hleft : left.Fits source)
    (h : ∀ t ∈ content, InlineTree.Fits source m t) :
    Fits source m n (.heading level entered content left)
  | code {n : Nat} {entered left : ByteRange} (info : Option String)
    (texts : List (String × ByteRange)) (hentered : entered.Fits source)
    (hleft : left.Fits source) :
    Fits source m n (.code info entered texts left)
  | markup {n : Nat} {entered left : ByteRange} (pieces : List (Bool × String × ByteRange))
    (hentered : entered.Fits source) (hleft : left.Fits source) :
    Fits source m n (.markup entered pieces left)
  | rule {n : Nat} {range : ByteRange} (hrange : range.Fits source) :
    Fits source m n (.rule range)
  | quote {n : Nat} {entered left : ByteRange} {children : List BlockTree}
    (hentered : entered.Fits source) (hleft : left.Fits source)
    (hle : entered.start ≤ left.start) (h : ∀ t ∈ children, Fits source m n t) :
    Fits source m (n + 1) (.quote entered children left)
  | list {n : Nat} {entered : ByteRange} {items : List ItemTree} (first : Option Nat)
    (left : ByteRange) (hentered : entered.Fits source)
    (hitems : ∀ item ∈ items, item.entered.Fits source)
    (hblocks : ∀ item ∈ items, ∀ t, .block t ∈ item.parts → Fits source m n t)
    (hinlines : ∀ item ∈ items, ∀ t, .inline t ∈ item.parts → InlineTree.Fits source m t) :
    Fits source m (n + 2) (.list first entered items left)

end BlockTree

/-! ### Comparison -/

/-- A block that was built stands for another one: trivia, a line break at the end of a paragraph
and what is read back from the source of a list, a quote or a fence may differ, nothing else. -/
inductive Block.Agrees : Block → Block → Prop where
  | paragraph {ending : List Inline} (is : List Inline) (t t' : Trivia)
    (h : ending = [] ∨ ∃ newline, ending = [.lineBreak newline false]) :
    Agrees (.paragraph is t) (.paragraph (is ++ ending) t')
  | heading (level : Nat) (is : List Inline) (newline : Newline) (t t' : Trivia) :
    Agrees (.heading level is newline t) (.heading level is newline t')
  | codeBlock {fence fence' : Option Fence} (lines : List Line) (t t' : Trivia)
    (h : fence.map (·.info) = fence'.map (·.info)) :
    Agrees (.codeBlock lines fence t) (.codeBlock lines fence' t')
  | htmlBlock (lines : List Line) (t t' : Trivia) :
    Agrees (.htmlBlock lines t) (.htmlBlock lines t')
  | thematicBreak (content : String) (newline : Newline) (t t' : Trivia) :
    Agrees (.thematicBreak content newline t) (.thematicBreak content newline t')
  | quote {children children' : List Block} (lines lines' : List QuoteLine) (t t' : Trivia)
    (h : List.Forall₂ Agrees children children') :
    Agrees (.quote lines children t) (.quote lines' children' t')
  | list {style style' : ListStyle} {items items' : List ListItem} (t t' : Trivia)
    (hordered : style.ordered = style'.ordered) (hloose : style.loose = style'.loose)
    (h : List.Forall₂ (List.Forall₂ Agrees) (items.map (·.children)) (items'.map (·.children))) :
    Agrees (.list style items t) (.list style' items' t')

/-- Other trivia make no difference. -/
theorem Block.Agrees.withTrivia {expected built : Block} (h : expected.Agrees built) (t : Trivia) :
    expected.Agrees (built.withTrivia t) := by
  cases h with
  | paragraph is t₁ _ hending => exact .paragraph is t₁ t hending
  | heading level is newline t₁ _ => exact .heading level is newline t₁ t
  | codeBlock lines t₁ _ hfence => exact .codeBlock lines t₁ t hfence
  | htmlBlock lines t₁ _ => exact .htmlBlock lines t₁ t
  | thematicBreak content newline t₁ _ => exact .thematicBreak content newline t₁ t
  | quote lines lines' t₁ _ hchildren => exact .quote lines lines' t₁ t hchildren
  | list t₁ _ hordered hloose hitems => exact .list t₁ t hordered hloose hitems

end MarkdownSpans
