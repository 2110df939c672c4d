import MarkdownSpans.Proofs.Tree.Bounded
import MarkdownSpans.Proofs.Tree.Filled

/-!
# The last block of a document

The lines behind all events are recorded behind the last block of the document, whatever it is. If
the last events are those of a block at the top level, then it is the block built of them, and the
lines recorded behind it are the ones behind its range and no others (`Document.ofEvents?_last`).
-/

namespace MarkdownSpans

/-- Whether a block is a quote without blocks in it. -/
def Block.isBareQuote : Block → Bool
  | quote _ children _ => children.isEmpty
  | _ => false

/-- The block with these lines behind it. -/
def Block.withLinesAfter (lines : List Line) (b : Block) : Block :=
  b.withTrivia { b.trivia with linesAfter := some lines }

/-- A block with this range ends with the line that ends at some position. -/
def ByteRange.Reaches (source : List Char) (stop : Nat) (range : ByteRange) : Prop :=
  ∃ last, blockEnd? source range = some last ∧ last.stop = stop

theorem ByteRange.Reaches.stop_eq {source : List Char} {stop : Nat} {range : ByteRange}
    {last : LineEnd} (h : range.Reaches source stop) (hlast : blockEnd? source range = some last) :
    last.stop = stop := by
  obtain ⟨last', hlast', hstop⟩ := h
  rwa [Option.some.inj (hlast'.symm.trans hlast)] at hstop

/-! ### Blocks at the top level -/

/-- A block at the top level, with the events in it. -/
inductive TopBlock where
  | rule
  | paragraph (content : EventForest)
  | heading (level : Nat) (content : EventForest)
  | quote (content : EventForest)

namespace TopBlock

/-- The events of a block with some range. -/
def forest (range : ByteRange) : TopBlock → EventForest
  | rule => .event ⟨.rule, range⟩ nofun nofun .nil
  | paragraph content => .enclose .paragraph range range content .nil
  | heading level content => .enclose (.heading level) range range content .nil
  | quote content => .enclose .blockQuote range range content .nil

/-- What stands in the block. -/
def content : TopBlock → EventForest
  | rule => .nil
  | paragraph content | heading _ content | quote content => content

/-- The kind of block that is built. -/
def kind : TopBlock → NodeKind
  | rule => .thematicBreak
  | paragraph _ => .paragraph
  | heading _ _ => .heading
  | quote _ => .quote

/-- What is built is a block of this kind, and if it is a quote of some block, then it has blocks in
it, too. -/
structure Builds (maxDepth : Nat) (last : TopBlock) (block : Block) : Prop where
  kind : block.kind = last.kind
  filled : (∀ content, last = .quote content → content.HasBlock (maxDepth - 1)) →
    block.isBareQuote = false

theorem Builds.of_kind {maxDepth : Nat} {last : TopBlock} {block : Block}
    (hquote : last.kind ≠ .quote) (h : block.kind = last.kind) : last.Builds maxDepth block := by
  refine ⟨h, fun _ => ?_⟩
  cases block with
  | quote _ _ _ => exact absurd h.symm hquote
  | _ => rfl

/-- Where link definitions begin that are put into the document behind the block. -/
def definitionsEnd (range : ByteRange) : TopBlock → Nat
  | quote _ => range.stop
  | _ => range.start

/-- A paragraph or heading holds nothing but inlines, and a quote fits into the limit on nesting. -/
def Regular (maxDepth : Nat) : TopBlock → Prop
  | rule => True
  | paragraph content | heading _ content => content.Blockless
  | quote _ => 0 < maxDepth

theorem paired_forest {last : TopBlock} {range : ByteRange} (h : last.content.Paired) :
    (last.forest range).Paired := by
  cases last with
  | rule => exact h
  | paragraph _ | heading _ _ | quote _ => exact ⟨rfl, h, trivial⟩

/-- The events in a block are among those of the block. -/
theorem inside_forest {last : TopBlock} {range : ByteRange} {limit : Nat}
    (h : ∀ e ∈ (last.forest range).events, e.range.Inside limit) :
    range.Inside limit ∧ ∀ e ∈ last.content.events, e.range.Inside limit := by
  cases last with
  | rule => exact ⟨h _ (.head _), nofun⟩
  | paragraph content | heading _ content | quote content =>
    exact ⟨h _ (.head _), fun e he => h e (.tail _ (List.mem_append_left _ he))⟩

end TopBlock

namespace Builder

variable {b b' b'' : Builder} {range : ByteRange}

/-! ### The end of a document -/

/-- A builder that is done with the source up to the end of a line, with some last block. -/
structure Settled (head : List Char) (builds : Block → Prop) (b : Builder) : Prop where
  leaf : ∀ s ∈ b.shape, s.sort ≠ .implicit
  definitions : b.definitions = []
  cursor : b.cursor = byteLength head
  block : ∃ block rest, b.openBlocks = block :: rest ∧ builds block

theorem Settled.mono {head : List Char} {builds builds' : Block → Prop} (h : b.Settled head builds)
    (hbuilds : ∀ block, builds block → builds' block) : b.Settled head builds' := by
  obtain ⟨block, rest, hopen, hblock⟩ := h.block
  exact ⟨h.leaf, h.definitions, h.cursor, block, rest, hopen, hbuilds block hblock⟩

theorem openBlocks_pushBlock (h : b.containers ≠ []) (block : Block) :
    (b.pushBlock block).openBlocks = block :: b.openBlocks := by
  obtain ⟨c, rest, hcons⟩ := List.exists_cons_of_ne_nil h
  simp [pushBlock, openBlocks, hcons]

/-- Behind a block that ends with the line a builder is settled. -/
theorem settled_pushBlock {head : List Char} {builds : Block → Prop} {block : Block} {cursor : Nat}
    (hleaf : ∀ s ∈ b.shape, s.sort ≠ .implicit) (hdefinitions : b.definitions = [])
    (hne : b.containers ≠ []) (hbuilds : builds block) (hcursor : cursor = byteLength head) :
    ({ b.pushBlock block with cursor } : Builder).Settled head builds where
  leaf s hs := hleaf s (by rwa [shape, leaf_pushBlock] at hs)
  definitions := (definitions_pushBlock b block).trans hdefinitions
  cursor := hcursor
  block := ⟨block, b.openBlocks, openBlocks_pushBlock hne block, hbuilds⟩

theorem not_implicit_of_none (h : b.leaf = none) : ∀ s ∈ b.shape, s.sort ≠ .implicit := by
  rw [shape, h]
  intro s hs
  cases hs

/-- Where a block has begun no paragraph is open that inlines of an item stand in. -/
theorem not_implicit_of_kept (h : b'.shape = keptShape b.shape) :
    ∀ s ∈ b'.shape, s.sort ≠ .implicit := by
  rw [h]
  intro s hs
  obtain ⟨s', -, hkept⟩ := Option.bind_eq_some_iff.1 hs
  split_ifs at hkept with hsort
  cases hkept
  exact hsort

theorem closeImplicit_of_shape (h : ∀ s ∈ b.shape, s.sort ≠ .implicit) :
    b.closeImplicit = some b := by
  unfold closeImplicit
  split
  next hleaf =>
    have implicit := h _ (by rw [shape, hleaf]; rfl)
    exact absurd rfl implicit
  · rfl

theorem flushDefinitions_of_nil (h : b.definitions = []) (limit : Option Nat) :
    b.flushDefinitions limit = some b := by
  obtain ⟨source, options, containers, leaf, definitions, cursor, skipped, frames⟩ := b
  obtain rfl : definitions = [] := h
  rfl

/-- The lines behind the cursor are recorded behind the last block. -/
theorem finish_of_gap {b₁ b₂ : Builder} {lines : List Line} (hclose : b.closeImplicit = some b₁)
    (hflush : b₁.flushDefinitions none = some b₂)
    (hgap : gapFrom? b₂.source false b₂.cursor (byteLength b₂.source) = some lines)
    (hlines : lines ≠ []) :
    b.finish = some ⟨b₂.openBlocks.tail.reverse ++
      [(b₂.openBlocks.head?.getD (.emptyBlock {})).withLinesAfter lines]⟩ := by
  have present : lines.isEmpty = false := by simpa using hlines
  simp only [finish, hclose, hflush, hgap, Option.bind_eq_bind, Option.bind_some, present]
  cases b₂.openBlocks with
  | nil => rfl
  | cons last rest => simp [setLinesAfter, Block.withLinesAfter]

section Last

variable {head tail : List Char} {latest : Nat}

/-- The lines of the text behind the end of the line are the last lines recorded behind the last
block, and the only ones if the builder is settled. -/
theorem exists_finish_last (h : b.Bounded head tail latest) (hplaced : b.Placed (head ++ tail))
    (htail : tail ≠ []) :
    ∃ (blocks : List Block) (block : Block) (lines : List Line), b.finish = some ⟨blocks ++
        [block.withLinesAfter (lines ++ Line.split (String.ofList tail))]⟩ ∧
      ∀ builds, b.Settled head builds → lines = [] ∧ builds block := by
  obtain ⟨b₁, hclose, h₁⟩ := hplaced.closeImplicit
  obtain ⟨b₂, hflush, h₂⟩ := h₁.flushDefinitions none
  have bounded := ((h.closeImplicit hclose).flushDefinitions hflush).1
  obtain ⟨lines, hgap, hnil⟩ := h.seam.exists_gap htail h₂.cursor bounded.cursor
  rw [← h₂.source_eq] at hgap
  have present : lines ++ Line.split (String.ofList tail) ≠ [] := by
    intro hempty
    have split_nil := (List.append_eq_nil_iff.1 hempty).2
    have cut := (Line.chained_split_ofList tail).2
    rw [split_nil] at cut
    exact htail cut.symm
  refine ⟨_, _, lines, finish_of_gap hclose hflush hgap present, fun builds settled => ?_⟩
  obtain rfl : b = b₁ := Option.some.inj
    ((closeImplicit_of_shape settled.leaf).symm.trans hclose)
  obtain rfl : b = b₂ := Option.some.inj
    ((flushDefinitions_of_nil settled.definitions none).symm.trans hflush)
  obtain ⟨block, rest, hopen, hbuilds⟩ := settled.block
  exact ⟨hnil settled.cursor, by rw [hopen]; exact hbuilds⟩

/-! ### Runs over the last block -/

theorem definitions_markLoose (b : Builder) : b.markLoose.definitions = b.definitions := by
  unfold markLoose
  split <;> rfl

/-- A block begins: no definition waits any more, and no paragraph that inlines of an item stand in
is open. -/
theorem ready_beginBlock {start : Nat} {lines : Option (List Line)}
    (h : b.Bounded head tail start) (hstart : start < byteLength head)
    (hne : b.containers ≠ []) (hb : b.beginBlock start = some (lines, b')) :
    b'.definitions = [] ∧ (∀ s ∈ b'.shape, s.sort ≠ .implicit) ∧ b'.containers ≠ [] :=
  ⟨(h.beginBlock hstart hb).2 (Nat.le_refl start), not_implicit_of_kept (shape_beginBlock hb),
    containers_ne_nil (fills_beginBlock hb).skeleton hne⟩

theorem settled_addRule (h : b.Bounded head tail range.start) (hne : b.containers ≠ [])
    (hrange : range.Inside (byteLength head))
    (hreach : range.Reaches (head ++ tail) (byteLength head))
    (hb : b.addRule range = some b') : b'.Settled head (·.kind = .thematicBreak) := by
  simp only [addRule, Option.bind_eq_bind, Option.bind_eq_some_iff, Option.some.injEq] at hb
  obtain ⟨⟨lines, b₁⟩, hbegin, last, hlast, content, -, rfl⟩ := hb
  obtain ⟨hdefinitions, hleaf, hne₁⟩ := ready_beginBlock h hrange.start hne hbegin
  have source := (h.beginBlock hrange.start hbegin).1.source_eq
  exact settled_pushBlock hleaf hdefinitions hne₁ rfl (hreach.stop_eq (source ▸ hlast))

/-- A paragraph is closed that reaches as far as its range does. -/
theorem settled_closeParagraph {leaf : Leaf} (h : b.Bounded head tail latest)
    (hdefinitions : b.definitions = []) (hne : b.containers ≠ []) (hleaf : b.leaf = some leaf)
    (hstart : leaf.start = range.start) (hrange : range.Inside (byteLength head))
    (hreach : range.Reaches (head ++ tail) (byteLength head))
    (hb : b.closeParagraph range.stop = some b') : b'.Settled head (·.kind = .paragraph) := by
  simp only [closeParagraph, hleaf, Option.bind_eq_bind, Option.bind_eq_some_iff,
    Option.some.injEq] at hb
  obtain ⟨last, hlast, rfl⟩ := hb
  refine settled_pushBlock (not_implicit_of_none rfl) hdefinitions hne rfl
    (Nat.le_antisymm ?_ ?_)
  · obtain ⟨hstart, hstop⟩ := h.leaf leaf hleaf
    have inside : (ByteRange.mk leaf.start (max range.stop leaf.stop)).Inside (byteLength head) :=
      ⟨hstart, Nat.max_le.2 ⟨hrange.stop, hstop⟩⟩
    exact h.stop_le inside hlast
  · obtain ⟨last', hlast', hstop⟩ := hreach
    rw [h.source_eq, hstart] at hlast
    rw [← hstop]
    exact blockEnd?_stop_mono hlast' hlast (Nat.le_max_left ..)

theorem settled_closeHeading {leaf : Leaf} (h : b.Bounded head tail latest)
    (hdefinitions : b.definitions = []) (hne : b.containers ≠ []) (hleaf : b.leaf = some leaf)
    (htag : leaf.kind.tag = .heading)
    (hreach : range.Reaches (head ++ tail) (byteLength head))
    (hb : b.closeHeading range = some b') : b'.Settled head (·.kind = .heading) := by
  obtain ⟨kind, start, stop, lines, root, frames⟩ := leaf
  cases kind with
  | heading level =>
    simp only [closeHeading, hleaf, Option.bind_eq_bind, Option.bind_eq_some_iff,
      Option.some.injEq] at hb
    obtain ⟨last, hlast, rfl⟩ := hb
    exact settled_pushBlock (not_implicit_of_none rfl) hdefinitions hne rfl
      (hreach.stop_eq (h.source_eq ▸ hlast))
  | _ => cases htag

/-- A quote that was opened is left, and all definitions before its end are in the document. -/
theorem settled_leaveQuote {start : Nat} {kinds : List ContainerKind} {skipped : Nat × Nat}
    (h : b.Bounded head tail range.stop)
    (hskeleton : b.skeleton = (.quote start :: kinds, skipped)) (hkinds : kinds ≠ [])
    (hreach : range.Reaches (head ++ tail) (byteLength head))
    (hb : b.leaveQuote range = some b') :
    b'.Settled head fun block =>
      block.kind = .quote ∧ (b.Holds → block.isBareQuote = false) := by
  obtain ⟨b₁, b₂, c, rest, last, lines, blocks, trivia, hclose, hflush, hcons, hne, hlast, hfilled,
    rfl⟩ := exists_of_leaveQuote hskeleton hkinds hb
  obtain ⟨h₂, hnone⟩ := (h.closeImplicit hclose).flushDefinitions hflush
  have hdefinitions : b₂.definitions = [] := hnone fun n hn => by
    cases hn
    exact Nat.le_refl _
  have hleaf : b₂.shape = keptShape b.shape := by
    rw [← shape_closeImplicit hclose, shape, leaf_flushDefinitions hflush, shape]
  have hstop := hreach.stop_eq (h₂.source_eq ▸ hlast)
  refine settled_pushBlock (b := { b₂ with containers := rest }) (not_implicit_of_kept hleaf)
    hdefinitions hne ⟨rfl, fun hholds => ?_⟩ ?_
  · have kept := (KeepsFilled.of_fills (fills_closeImplicit (p := True) hclose)).trans
      (.flushDefinitions hflush)
    obtain ⟨c', rest', hcons', hc'⟩ := kept.holds hholds
    obtain ⟨rfl, -⟩ := List.cons.inj (hcons.symm.trans hcons')
    exact List.isEmpty_eq_false_iff.2 (hfilled hc')
  · rw [hstop, Nat.max_eq_right]
    exact ((h₂.withContainers rest _ _).pushBlock _).cursor

/-- **The last block.** A run over the events of a block at the top level is done with the source up
to the end of the block, and has built the block. -/
theorem settled_run {last : TopBlock} (hregular : last.Regular b.options.maxDepth)
    (h : b.Bounded head tail (last.definitionsEnd range))
    (hskeleton : b.skeleton = ([.document], 0, 0))
    (hevents : ∀ e ∈ (last.forest range).events, e.range.Inside (byteLength head))
    (hreach : range.Reaches (head ++ tail) (byteLength head))
    (hb : b.run (last.forest range).events = some b') :
    b'.Settled head (last.Builds b.options.maxDepth) := by
  have hne := containers_ne_nil_of_skeleton hskeleton
  obtain ⟨hrange, hcontent⟩ := last.inside_forest hevents
  cases last with
  | rule =>
    obtain ⟨b₁, hstep, hb⟩ := EventForest.exists_of_run_event hb
    cases hb
    exact (settled_addRule h hne hrange hreach hstep).mono fun _ hkind =>
      .of_kind (by simp [TopBlock.kind]) hkind
  | paragraph content =>
    obtain ⟨b₁, b₂, b₃, henter, hrun, hleave, hb⟩ := EventForest.exists_of_run_enclose hb
    cases hb
    have h₂ := (h.enterParagraph hrange henter).run hcontent hrun
    simp only [enter, enterParagraph, Option.bind_eq_bind, Option.bind_eq_some_iff,
      Option.some.injEq] at henter
    obtain ⟨⟨lines, b₀⟩, hbegin, rfl⟩ := henter
    obtain ⟨hdefinitions, -, hne₀⟩ := ready_beginBlock h hrange.start hne hbegin
    have hne₁ : b₀.markLoose.containers ≠ [] := containers_ne_nil skeleton_markLoose hne₀
    obtain ⟨leaf, skipped, rfl, -, hstart⟩ := StaysIn.run content hregular rfl hrun
    exact (settled_closeParagraph h₂ ((definitions_markLoose b₀).trans hdefinitions) hne₁ rfl hstart
      hrange hreach hleave).mono fun _ hkind => .of_kind (by simp [TopBlock.kind]) hkind
  | heading level content =>
    obtain ⟨b₁, b₂, b₃, henter, hrun, hleave, hb⟩ := EventForest.exists_of_run_enclose hb
    cases hb
    have h₂ := (h.beginLeaf hrange.start henter).run hcontent hrun
    simp only [enter, beginLeaf, Option.bind_eq_bind, Option.bind_eq_some_iff,
      Option.some.injEq] at henter
    obtain ⟨⟨lines, b₀⟩, hbegin, rfl⟩ := henter
    obtain ⟨hdefinitions, -, hne₀⟩ := ready_beginBlock h hrange.start hne hbegin
    obtain ⟨leaf, skipped, rfl, htag, -⟩ := StaysIn.run content hregular rfl hrun
    exact (settled_closeHeading h₂ hdefinitions hne₀ rfl htag hreach hleave).mono fun _ hkind =>
      .of_kind (by simp [TopBlock.kind]) hkind
  | quote content =>
    obtain ⟨b₁, b₂, b₃, henter, hrun, hleave, hb⟩ := EventForest.exists_of_run_enclose hb
    cases hb
    have h₂ := (h.enterQuote hrange henter).run hcontent hrun
    have room : b.Room (b.options.maxDepth - 1 + 1) := by
      rw [Nat.sub_add_cancel (show 0 < b.options.maxDepth from hregular)]
      exact .of_document hskeleton
    have hopens : b.opens Tag.blockQuote.kind = true := room.fits_of_le (Nat.le_add_left 1 _)
    have room₁ : b₁.Room (b.options.maxDepth - 1) := room.enter rfl hopens henter
    obtain ⟨_, frames, rfl, opened⟩ := exists_skeleton_of_opens rfl hopens henter
    rw [hskeleton] at opened
    have skeleton := (skeleton_run content hrun).trans opened
    have hleaveQuote := leaveQuote_of_leave (congrArg (·.2.1) skeleton) hleave
    exact (settled_leaveQuote h₂ skeleton (List.cons_ne_nil _ _) hreach hleaveQuote).mono
      fun _ hbuilds => ⟨hbuilds.1, fun hblock =>
        hbuilds.2 (room₁.holds_run content (hblock content rfl) hrun)⟩

end Last

end Builder

/-- **The lines behind all blocks are recorded behind the last one.** A document is built of any
balanced events before the end of a line, whose last ones are those of a block at the top level, and
the lines from there on are the last lines recorded behind the last block of the document. No other
lines are recorded there, and the last block is the one built of the last events, if the block ends
with the line, nothing but inlines stands in a paragraph or heading, a quote fits into the limit on
nesting and no link definition is put behind the block. -/
theorem Document.ofEvents?_last {source : String} {body after : List Line}
    {definitions : List ByteRange} (options : ParseOptions) (registry : EmojiRegistry)
    {earlier : EventForest} {last : TopBlock} {range : ByteRange}
    (hsource : Line.split source = body ++ after)
    (hafter : after ≠ []) (hpaired : earlier.Paired) (hlast : last.content.Paired)
    (hevents : ∀ e ∈ earlier.events ++ (last.forest range).events,
      e.range.Fits source.toList ∧ e.range.Inside (Line.size body))
    (hdefinitions : ∀ r ∈ definitions, r.Fits source.toList ∧ r.Inside (Line.size body)) :
    ∃ (blocks : List Block) (block : Block) (lines : List Line),
      ofEvents? source definitions options (earlier.events ++ (last.forest range).events)
          registry =
        some ⟨blocks ++ [block.withLinesAfter (lines ++ after)]⟩ ∧
      (last.Regular options.maxDepth → range.Reaches source.toList (Line.size body) →
        (∀ r ∈ definitions, r.start < last.definitionsEnd range) →
          lines = [] ∧ last.Builds options.maxDepth block) := by
  obtain ⟨chained, hjoined⟩ := Line.chained_split source
  rw [hsource] at chained hjoined
  rw [Line.joined_append] at hjoined
  have seam := LineSeam.of_chained chained hafter
  have htail : Line.joined after ≠ [] := fun hnil => hafter (chained.right.eq_nil_of_joined hnil)
  have again : Line.split (String.ofList (Line.joined after)) = after := chained.right.split_joined
  simp only [List.forall_mem_append, ← hjoined] at hevents hdefinitions
  obtain ⟨hearlier, hlater⟩ := hevents
  have placed := Builder.Placed.start (fun r hr => (hdefinitions r hr).1) ⟨options, registry⟩
  obtain ⟨b₁, hrun₁, placed₁⟩ := placed.run earlier hpaired fun e he => (hearlier e he).1
  obtain ⟨b₂, hrun₂, placed₂⟩ := placed₁.run (last.forest range) (last.paired_forest hlast)
    fun e he => (hlater e he).1
  have bounded (latest : Nat) (hlatest : ∀ r ∈ definitions, r.start < latest) :
      b₁.Bounded (Line.joined body) (Line.joined after) latest :=
    (Builder.Bounded.start seam (fun r hr => ⟨(hdefinitions r hr).2, hlatest r hr⟩) _).run
      (fun e he => (hearlier e he).2) hrun₁
  have bounded₂ := (bounded (Line.size body) fun r hr => (hdefinitions r hr).2.start).run
    (fun e he => (hlater e he).2) hrun₂
  obtain ⟨blocks, block, lines, hfinish, hsettled⟩ :=
    Builder.exists_finish_last bounded₂ placed₂ htail
  rw [again] at hfinish
  refine ⟨blocks, block, lines, ?_, fun hregular hreach hlatest => hsettled _ ?_⟩
  · rw [ofEvents?, ← hjoined]
    simp only [Builder.run_append, hrun₁, hrun₂, Option.bind_eq_bind, Option.bind_some, hfinish]
  · have skeleton := Builder.skeleton_run earlier hrun₁
    have reading := Builder.reading_run hrun₁
    have maxDepth_eq : b₁.options.maxDepth = options.maxDepth := congrArg (·.2.maxDepth) reading
    rw [← maxDepth_eq] at hregular ⊢
    exact Builder.settled_run hregular (bounded _ hlatest) skeleton (fun e he => (hlater e he).2)
      (hjoined ▸ hreach) hrun₂

end MarkdownSpans
