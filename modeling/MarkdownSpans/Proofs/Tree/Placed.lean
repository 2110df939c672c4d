import MarkdownSpans.Proofs.Tree.BlockRun
import MarkdownSpans.Proofs.Tree.Filling

/-!
# Positions that builders keep

Every look at the source refuses a position that is past its end or inside a character, and ranges
whose ends are in the wrong order. A builder keeps only positions that are not refused
(`Builder.Placed`), if the ranges it is given are of that kind: each operation then leads to a
builder again, with positions of that kind. The one place where ranges of different events meet is
the end of a quote, which is read from the start of the quote; a quote is left with the range it was
entered with, since balanced events keep the skeleton of the open containers.
-/

namespace MarkdownSpans

namespace Leaf

/-- Adding inlines to a leaf changes nothing but the inlines in it. -/
theorem exists_pushAll (leaf : Leaf) (is : List Inline) :
    ∃ root frames, leaf.pushAll is = { leaf with root, frames } := by
  cases h : leaf.frames with
  | nil => exact ⟨_, _, by rw [pushAll_root is h, h]⟩
  | cons frame rest => exact ⟨_, _, pushAll_frame is h⟩

theorem exists_push (leaf : Leaf) (inline : Inline) :
    ∃ root frames, leaf.push inline = { leaf with root, frames } :=
  leaf.exists_pushAll [inline]

/-- Leaving an inline container changes nothing but the inlines in the leaf. -/
theorem exists_closeFrame (leaf : Leaf) :
    ∃ root frames, leaf.closeFrame = { leaf with root, frames } := by
  unfold closeFrame
  split
  · exact ⟨leaf.root, leaf.frames, rfl⟩
  next frame rest hcons =>
    exact exists_pushAll { leaf with frames := rest } (frame.kind.close frame.reversed.reverse)

end Leaf

namespace Builder

/-- The positions a builder keeps are positions of the source, and those of ranges in order. -/
structure Placed (source : List Char) (b : Builder) : Prop where
  source_eq : b.source = source
  cursor : IsPosition source b.cursor
  leaf : ∀ leaf ∈ b.leaf, (ByteRange.mk leaf.start leaf.stop).Fits source
  definitions : ∀ range ∈ b.definitions, range.Fits source

/-- An operation does not fail and leads to a builder that keeps positions of the source. -/
def Lands (source : List Char) (result : Option Builder) : Prop :=
  ∃ b, result = some b ∧ b.Placed source

theorem Lands.bind {source : List Char} {result : Option Builder} {f : Builder → Option Builder}
    (h : Lands source result) (hf : ∀ b, b.Placed source → Lands source (f b)) :
    Lands source (result.bind f) := by
  obtain ⟨b, rfl, hb⟩ := h
  exact hf b hb

@[simp] theorem source_pushBlock (b : Builder) (block : Block) :
    (b.pushBlock block).source = b.source :=
  congrArg Prod.fst (reading_pushBlock block)

namespace Placed

variable {source : List Char} {b : Builder} {range : ByteRange}

theorem start {definitions : List ByteRange} (h : ∀ range ∈ definitions, range.Fits source)
    (options : BuildOptions) : (Builder.start source definitions options).Placed source :=
  ⟨rfl, .zero source, nofun, h⟩

theorem lands (h : b.Placed source) : Lands source (some b) := ⟨b, rfl, h⟩

/-! ### Changes of fields -/

theorem moveTo {cursor : Nat} (h : b.Placed source) (hcursor : IsPosition source cursor) :
    ({ b with cursor } : Builder).Placed source :=
  ⟨h.source_eq, hcursor, h.leaf, h.definitions⟩

theorem withLeaf {leaf? : Option Leaf} (h : b.Placed source)
    (hleaf : ∀ leaf ∈ leaf?, (ByteRange.mk leaf.start leaf.stop).Fits source) :
    ({ b with leaf := leaf? } : Builder).Placed source :=
  ⟨h.source_eq, h.cursor, hleaf, h.definitions⟩

theorem dropLeaf (h : b.Placed source) : ({ b with leaf := none } : Builder).Placed source :=
  h.withLeaf nofun

/-- The open containers, and the numbers of those that are counted, hold no positions to keep. -/
theorem withContainers (h : b.Placed source) (containers : List Container) (m n : Nat) :
    ({ b with containers, skippedContainers := m, skippedFrames := n } : Builder).Placed source :=
  ⟨h.source_eq, h.cursor, h.leaf, h.definitions⟩

theorem pushBlock (h : b.Placed source) (block : Block) : (b.pushBlock block).Placed source := by
  unfold Builder.pushBlock
  split
  · exact h
  · exact h.withContainers _ _ _

theorem markLoose (h : b.Placed source) : b.markLoose.Placed source := by
  unfold Builder.markLoose
  split
  · exact h.withContainers _ _ _
  · exact h

theorem mapLeaf (h : b.Placed source) {f : Leaf → Leaf}
    (hf : ∀ leaf, (ByteRange.mk leaf.start leaf.stop).Fits source →
      (ByteRange.mk (f leaf).start (f leaf).stop).Fits source) :
    (b.mapLeaf f).Placed source := by
  refine h.withLeaf fun changed hchanged => ?_
  obtain ⟨leaf, hleaf, rfl⟩ := Option.map_eq_some_iff.1 hchanged
  exact hf leaf (h.leaf leaf hleaf)

theorem openLeaf (h : b.Placed source) {start : Nat} (hstart : IsPosition source start)
    (kind : LeafKind) (lines : Option (List Line)) : (b.openLeaf kind start lines).Placed source :=
  h.withLeaf fun
    | _, rfl => ⟨hstart, hstart, Nat.le_refl start⟩

/-! ### Blocks -/

theorem closeParagraph {stop : Nat} (h : b.Placed source) (hstop : IsPosition source stop) :
    Lands source (b.closeParagraph stop) := by
  obtain rfl := h.source_eq
  unfold Builder.closeParagraph
  split
  · exact h.lands
  next leaf hleaf =>
    obtain ⟨hstart, hreach, hle⟩ := h.leaf leaf hleaf
    have fits : (ByteRange.mk leaf.start (max stop leaf.stop)).Fits b.source :=
      ⟨hstart, hstop.max hreach, Nat.le_trans hle (Nat.le_max_right ..)⟩
    obtain ⟨last, hlast, -, -, -, hposition⟩ := fits.exists_blockEnd
    simp only [hlast, Option.bind_eq_bind, Option.bind_some]
    exact ((h.dropLeaf.pushBlock _).moveTo hposition).lands

theorem closeImplicit (h : b.Placed source) : Lands source b.closeImplicit := by
  unfold Builder.closeImplicit
  split
  next hleaf => exact h.closeParagraph (h.leaf _ hleaf).stop
  · exact h.lands

/-- Definitions are taken up to a limit, and the cursor moves to the end of a line. -/
theorem exists_takeDefinitions (nested : Bool) (limit : Option Nat) {ranges : List ByteRange}
    (hranges : ∀ range ∈ ranges, range.Fits source) {cursor : Nat}
    (hcursor : IsPosition source cursor) :
    ∃ definitions ranges' cursor',
      takeDefinitions source nested limit ranges cursor = some (definitions, ranges', cursor') ∧
        (∀ range ∈ ranges', range.Fits source) ∧ IsPosition source cursor' := by
  induction ranges generalizing cursor with
  | nil => exact ⟨[], [], cursor, rfl, nofun, hcursor⟩
  | cons range rest ih =>
    obtain ⟨hrange, hrest⟩ := List.forall_mem_cons.1 hranges
    rw [takeDefinitions]
    split_ifs
    · obtain ⟨lineStart, hlineStart, -, hposition⟩ := hrange.start.exists_lineStart
      obtain ⟨lines, hlines⟩ := hcursor.exists_gap hposition nested
      obtain ⟨last, hlast, hle, -, hcontent, hstop⟩ := hrange.exists_blockEnd
      obtain ⟨raw, hraw, -⟩ := hrange.start.exists_slice hcontent hle
      obtain ⟨definitions, ranges', cursor', htake, hfits, hcursor'⟩ := ih hrest hstop
      simp only [hlineStart, hlines, hlast, hraw, htake, Option.bind_eq_bind, Option.bind_some]
      exact ⟨_, ranges', cursor', rfl, hfits, hcursor'⟩
    · exact ⟨[], range :: rest, cursor, rfl, hranges, hcursor⟩

theorem flushDefinitions (h : b.Placed source) (limit : Option Nat) :
    Lands source (b.flushDefinitions limit) := by
  obtain ⟨definitions, ranges, cursor, htake, hfits, hcursor⟩ :=
    exists_takeDefinitions b.isNested limit h.definitions h.cursor
  obtain rfl := h.source_eq
  unfold Builder.flushDefinitions
  simp only [htake, Option.bind_eq_bind, Option.bind_some]
  have taken : ({ b with definitions := ranges, cursor } : Builder).Placed b.source :=
    ⟨rfl, hcursor, h.leaf, hfits⟩
  split
  · exact taken.lands
  · exact (taken.pushBlock _).lands

theorem exists_gap (h : b.Placed source) {stop : Nat} (hstop : IsPosition source stop) :
    ∃ lines, b.gap? stop = some lines := by
  rw [gap?, h.source_eq]
  exact h.cursor.exists_gap hstop b.isNested

theorem exists_beginBlock (h : b.Placed source) {start : Nat} (hstart : IsPosition source start) :
    ∃ lines b', b.beginBlock start = some (lines, b') ∧ b'.Placed source := by
  obtain ⟨b₁, hclose, h₁⟩ := h.closeImplicit
  obtain ⟨b₂, hflush, h₂⟩ := h₁.flushDefinitions (some start)
  obtain ⟨lineStart, hlineStart, -, hposition⟩ := hstart.exists_lineStart
  obtain ⟨lines, hlines⟩ := h₂.exists_gap hposition
  obtain rfl := h₂.source_eq
  refine ⟨recorded lines, _, ?_, h₂.moveTo (h₂.cursor.max hposition)⟩
  simp only [beginBlock, hclose, hflush, hlineStart, hlines, Option.bind_eq_bind,
    Option.bind_some]

theorem beginLeaf (h : b.Placed source) {start : Nat} (hstart : IsPosition source start)
    (kind : LeafKind) : Lands source (b.beginLeaf kind start) := by
  obtain ⟨lines, b', hbegin, h'⟩ := h.exists_beginBlock hstart
  simp only [Builder.beginLeaf, hbegin, Option.bind_eq_bind, Option.bind_some]
  exact (h'.openLeaf hstart kind lines).lands

theorem enterParagraph (h : b.Placed source) (hrange : range.Fits source) :
    Lands source (b.enterParagraph range) := by
  obtain ⟨lines, b', hbegin, h'⟩ := h.exists_beginBlock hrange.start
  simp only [Builder.enterParagraph, hbegin, Option.bind_eq_bind, Option.bind_some]
  exact (h'.markLoose.openLeaf hrange.start _ lines).lands

theorem addRule (h : b.Placed source) (hrange : range.Fits source) :
    Lands source (b.addRule range) := by
  obtain ⟨lines, b', hbegin, h'⟩ := h.exists_beginBlock hrange.start
  obtain ⟨last, hlast, hle, -, hcontent, hstop⟩ := hrange.exists_blockEnd
  obtain ⟨content, hslice, -⟩ := hrange.start.exists_slice hcontent hle
  obtain rfl := h'.source_eq
  simp only [Builder.addRule, hbegin, hlast, hslice, Option.bind_eq_bind, Option.bind_some]
  exact ((h'.pushBlock _).moveTo hstop).lands

theorem closeHeading (h : b.Placed source) (hrange : range.Fits source) :
    Lands source (b.closeHeading range) := by
  obtain ⟨last, hlast, -, -, -, hstop⟩ := hrange.exists_blockEnd
  obtain rfl := h.source_eq
  unfold Builder.closeHeading
  split
  · simp only [hlast, Option.bind_eq_bind, Option.bind_some]
    exact ((h.dropLeaf.pushBlock _).moveTo hstop).lands
  · exact h.dropLeaf.lands

theorem closeCode (h : b.Placed source) (hrange : range.Fits source) :
    Lands source (b.closeCode range) := by
  obtain ⟨last, hlast, -, -, hcontent, hstop⟩ := hrange.exists_blockEnd
  obtain rfl := h.source_eq
  unfold Builder.closeCode
  split
  next text info _ _ _ _ _ _ =>
    simp only [hlast, Option.bind_eq_bind, Option.bind_some]
    cases info with
    | none => exact ((h.dropLeaf.pushBlock _).moveTo hstop).lands
    | some info =>
      obtain ⟨fence, hfence, -⟩ := exists_fence hrange.start hcontent info
      simp only [hfence, Option.map_some, Option.bind_some]
      exact ((h.dropLeaf.pushBlock _).moveTo hstop).lands
  · exact h.dropLeaf.lands

theorem closeHtml (h : b.Placed source) (hrange : range.Fits source) :
    Lands source (b.closeHtml range) := by
  obtain ⟨last, hlast, -, -, -, hstop⟩ := hrange.exists_blockEnd
  obtain rfl := h.source_eq
  unfold Builder.closeHtml
  split
  · refine ⟨_, Option.bind_eq_some_iff.2 ⟨last, ?_, rfl⟩, (h.dropLeaf.pushBlock _).moveTo hstop⟩
    rw [source_pushBlock]
    exact hlast
  · exact h.dropLeaf.lands

/-! ### Inlines -/

theorem push (h : b.Placed source) (inline : Inline) : (b.mapLeaf (·.push inline)).Placed source :=
  h.mapLeaf fun leaf hleaf => by
    obtain ⟨root, frames, hpush⟩ := leaf.exists_push inline
    rw [hpush]
    exact hleaf

theorem mapKind (h : b.Placed source) (f : Leaf → LeafKind) :
    (b.mapLeaf fun leaf => { leaf with kind := f leaf }).Placed source :=
  h.mapLeaf fun _ hleaf => hleaf

theorem leaveFrame (h : b.Placed source) : b.leaveFrame.Placed source := by
  unfold Builder.leaveFrame
  split
  · exact h.withContainers _ _ _
  · refine h.mapLeaf fun leaf hleaf => ?_
    obtain ⟨root, frames, hclose⟩ := leaf.exists_closeFrame
    rw [hclose]
    exact hleaf

theorem ensureLeaf (h : b.Placed source) (hrange : range.Fits source) :
    Lands source (b.ensureLeaf range) := by
  -- The leaf is extended over the range, to a position behind its start.
  have extend (b₁ : Builder) (h₁ : b₁.Placed source) : (b₁.mapLeaf fun leaf =>
      { leaf with stop := max leaf.stop range.stop }).Placed source :=
    h₁.mapLeaf fun leaf hleaf => ⟨hleaf.start, hleaf.stop.max hrange.stop,
      Nat.le_trans hleaf.le (Nat.le_max_left ..)⟩
  unfold Builder.ensureLeaf
  split
  · exact (h.beginLeaf hrange.start _).bind fun b₁ h₁ => (extend b₁ h₁).lands
  · exact (extend b h).lands

theorem addInline (h : b.Placed source) (hrange : range.Fits source) (inline : Inline) :
    Lands source (b.addInline inline range) :=
  (h.ensureLeaf hrange).bind fun _ h₁ => (h₁.push inline).lands

theorem addText (h : b.Placed source) (hrange : range.Fits source) (content : String) :
    Lands source (b.addText content range) := by
  unfold Builder.addText
  split
  · exact (h.mapKind _).lands
  · exact (h.mapKind _).lands
  · obtain ⟨raw, hraw, -⟩ := hrange.start.exists_slice hrange.stop hrange.le
    obtain ⟨before, -, -, -, hbefore, -⟩ := hrange.start.exists_take
    simp only [h.source_eq, hraw, hbefore, Option.bind_eq_bind, Option.bind_some]
    exact h.addInline hrange _

theorem addHtml (h : b.Placed source) (hrange : range.Fits source) (content : String) :
    Lands source (b.addHtml content range) := by
  unfold Builder.addHtml
  split
  · exact (h.mapKind _).lands
  · exact h.addInline hrange _

theorem addBreak (h : b.Placed source) (hrange : range.Fits source) (hard : Bool) :
    Lands source (b.addBreak hard range) := by
  obtain ⟨raw, hraw, -⟩ := hrange.start.exists_slice hrange.stop hrange.le
  simp only [Builder.addBreak, h.source_eq, hraw, Option.bind_eq_bind, Option.bind_some]
  exact h.addInline hrange _

theorem enterFrame (h : b.Placed source) (hrange : range.Fits source) (kind : FrameKind) :
    Lands source (b.enterFrame kind range) := by
  refine (h.ensureLeaf hrange).bind fun b₁ h₁ => ?_
  split
  · exact (h₁.withContainers _ _ _).lands
  · exact (h₁.mapLeaf (f := (·.openFrame kind)) fun _ hleaf => hleaf).lands

/-- An inline container whose frame is read from the text behind its start. -/
theorem enterFrame_of_rest (h : b.Placed source) (hrange : range.Fits source)
    (kind : List Char → FrameKind) :
    Lands source ((dropBytes b.source range.start).bind fun rest =>
      b.enterFrame (kind rest) range) := by
  obtain ⟨-, rest, -, -, -, hrest⟩ := hrange.start.exists_take
  rw [h.source_eq, hrest, Option.bind_some]
  exact h.enterFrame hrange (kind rest)

/-! ### Containers -/

theorem enterQuote (h : b.Placed source) (hrange : range.Fits source) :
    Lands source (b.enterQuote range) := by
  unfold Builder.enterQuote
  split
  · obtain ⟨lines, b', hbegin, h'⟩ := h.exists_beginBlock hrange.start
    simp only [hbegin, Option.bind_eq_bind, Option.bind_some]
    exact (h'.withContainers _ _ _).lands
  · exact (h.withContainers _ _ _).lands

theorem enterList (h : b.Placed source) (hrange : range.Fits source) (first : Option Nat) :
    Lands source (b.enterList first range) := by
  unfold Builder.enterList
  split
  · obtain ⟨lines, b', hbegin, h'⟩ := h.exists_beginBlock hrange.start
    obtain ⟨-, rest, -, -, -, hrest⟩ := hrange.start.exists_take
    obtain rfl := h'.source_eq
    simp only [hbegin, hrest, Option.bind_eq_bind, Option.bind_some]
    exact (h'.withContainers _ _ _).lands
  · exact (h.withContainers _ _ _).lands

theorem enterItem (h : b.Placed source) (hrange : range.Fits source) :
    Lands source (b.enterItem range) := by
  unfold Builder.enterItem
  split
  · exact (h.withContainers _ _ _).lands
  · exact h.closeImplicit.bind fun b₁ h₁ =>
      ((h₁.moveTo hrange.start).withContainers _ _ _).lands

theorem enter (h : b.Placed source) (hrange : range.Fits source) (tag : Tag) :
    Lands source (b.enter tag range) := by
  cases tag with
  | paragraph => exact h.enterParagraph hrange
  | heading level => exact h.beginLeaf hrange.start _
  | codeBlock info => exact h.beginLeaf hrange.start _
  | htmlBlock => exact h.beginLeaf hrange.start _
  | blockQuote => exact h.enterQuote hrange
  | list first => exact h.enterList hrange first
  | item => exact h.enterItem hrange
  | emphasis => exact h.enterFrame_of_rest hrange fun rest => .emphasis (rest.head?.getD '*') 1
  | strong => exact h.enterFrame_of_rest hrange fun rest => .emphasis (rest.head?.getD '*') 2
  | strikethrough =>
    exact h.enterFrame_of_rest hrange fun rest => .strikethrough (rest.takeWhile (· == '~')).length
  | link type url title => exact h.enterFrame hrange _
  | image type url title => exact h.enterFrame hrange _
  | other => exact h.lands

/-- A quote is read from the start of its line to the end of the range it is left with. -/
theorem leaveQuote (h : b.Placed source) (hrange : range.Fits source)
    (hquote : ∀ start kinds, b.skeleton.1 = .quote start :: kinds → start = range.start) :
    Lands source (b.leaveQuote range) := by
  obtain ⟨b₁, hclose, h₁⟩ := h.closeImplicit
  obtain ⟨b₂, hflush, h₂⟩ := h₁.flushDefinitions (some range.stop)
  obtain ⟨last, hlast, hle, hcontent, -, hstop⟩ := hrange.exists_blockEnd
  obtain ⟨trailing, htrailing⟩ := h₂.exists_gap hstop
  have skeleton : b₂.skeleton = b.skeleton :=
    (skeleton_flushDefinitions hflush).trans (fills_closeImplicit (p := True) hclose).skeleton
  obtain rfl := h₂.source_eq
  simp only [Builder.leaveQuote, hclose, hflush, hlast, htrailing, Option.bind_eq_bind,
    Option.bind_some]
  split
  · exact h₂.lands
  next container rest hcons =>
    split
    next start hkind =>
      have kinds : b.skeleton.1 = .quote start :: rest.map (·.kind.bare) := by
        rw [← skeleton]
        simp [Builder.skeleton, hcons, hkind, ContainerKind.bare]
      obtain rfl := hquote start _ kinds
      obtain ⟨lineStart, hlineStart, hbefore, hposition⟩ := hrange.start.exists_lineStart
      obtain ⟨text, htext, -⟩ := hposition.exists_slice hstop (by omega)
      simp only [hlineStart, htext, Option.bind_some]
      have popped := (h₂.withContainers rest b₂.skippedContainers b₂.skippedFrames).pushBlock
        (.quote (quoteLines (range.start - lineStart) text)
          (if trailing.isEmpty then container.reversed
            else setLinesAfter trailing container.reversed).reverse (tracked container.linesBefore))
      exact (popped.moveTo (popped.cursor.max hstop)).lands
    · exact (h₂.withContainers _ _ _).lands

theorem leaveItem (h : b.Placed source) : Lands source (b.leaveItem range) := by
  refine h.closeImplicit.bind fun b₁ h₁ => (h₁.flushDefinitions _).bind fun b₂ h₂ => ?_
  split
  · exact h₂.lands
  · exact (h₂.withContainers _ _ _).lands
  · exact (h₂.withContainers _ _ _).lands

theorem leaveList (h : b.Placed source) : b.leaveList.Placed source := by
  unfold Builder.leaveList
  split
  · exact h
  · exact (h.withContainers _ _ _).pushBlock _
  · exact h.withContainers _ _ _

theorem leave {kind : TagKind} (h : b.Placed source) (hrange : range.Fits source)
    (hquote : kind = .blockQuote → b.skippedContainers = 0 →
      ∀ start kinds, b.skeleton.1 = .quote start :: kinds → start = range.start) :
    Lands source (b.leave kind range) := by
  unfold Builder.leave
  split
  · exact (h.withContainers _ _ _).lands
  next hopened =>
    cases kind with
    | paragraph => exact h.closeParagraph hrange.stop
    | heading => exact h.closeHeading hrange
    | codeBlock => exact h.closeCode hrange
    | htmlBlock => exact h.closeHtml hrange
    | blockQuote =>
      have hskipped : b.skippedContainers = 0 := by simpa [isBlockContainer] using hopened
      exact h.leaveQuote hrange (hquote rfl hskipped)
    | list => exact h.leaveList.lands
    | item => exact h.leaveItem
    | emphasis | strong | strikethrough | link | image => exact h.leaveFrame.lands
    | other => exact h.lands

/-! ### Runs -/

/-- An event that neither enters nor leaves a container. -/
theorem step {e : RangedEvent} (h : b.Placed source) (hrange : e.range.Fits source)
    (hleave : ∀ kind, e.event ≠ .leave kind) : Lands source (b.step e) := by
  unfold Builder.step
  split
  · exact h.enter hrange _
  next kind hkind => exact absurd hkind (hleave kind)
  · exact h.addText hrange _
  · exact h.addInline hrange _
  · exact h.addHtml hrange _
  · exact h.addInline hrange _
  · exact h.addBreak hrange _
  · exact h.addBreak hrange _
  · exact h.addRule hrange
  · exact h.lands

/-- What a container is entered with is the innermost one again when it is left. -/
theorem quote_of_run {tag : Tag} {b₁ b₂ : Builder} (hkind : tag.kind = .blockQuote)
    (henter : b.enter tag range = some b₁) (hskeleton : b₂.skeleton = b₁.skeleton)
    (hskipped : b₂.skippedContainers = 0) {start : Nat} {kinds : List ContainerKind}
    (hkinds : b₂.skeleton.1 = .quote start :: kinds) : start = range.start := by
  have hblock : isBlockContainer tag.kind := by rw [hkind]; rfl
  rcases enter_container hblock henter with ⟨-, rfl⟩ | ⟨-, b₀, kind, lines, -, hopens, rfl⟩
  · have counted : b₂.skippedContainers = b.skippedContainers + 1 :=
      skippedContainers_congr hskeleton
    omega
  · cases tag with
    | blockQuote =>
      obtain rfl := hopens
      rw [hskeleton] at hkinds
      injection hkinds with hhead
      injection hhead with hstart
      exact hstart.symm
    | _ => cases hkind

/-- A run over balanced events whose ranges fit does not fail. -/
theorem run (forest : EventForest) (h : b.Placed source) (hpaired : forest.Paired)
    (hevents : ∀ e ∈ forest.events, e.range.Fits source) : Lands source (b.run forest.events) := by
  induction forest generalizing b with
  | nil => exact h.lands
  | event e henter hleave rest ih =>
    obtain ⟨he, hrest⟩ := List.forall_mem_cons.1 hevents
    rw [EventForest.events, run_cons]
    exact (h.step he hleave).bind fun b₁ h₁ => ih h₁ hpaired hrest
  | enclose tag range range' inner rest ih ih' =>
    obtain ⟨rfl, hinner, hrest⟩ := hpaired
    simp only [EventForest.events, List.forall_mem_cons, List.forall_mem_append] at hevents
    obtain ⟨hrange, hinnerEvents, -, hrestEvents⟩ := hevents
    obtain ⟨b₁, henter, h₁⟩ := h.enter hrange tag
    obtain ⟨b₂, hrun, h₂⟩ := ih h₁ hinner hinnerEvents
    rw [EventForest.run_enclose, henter, Option.bind_some, hrun, Option.bind_some]
    exact (h₂.leave hrange fun hkind hskipped start kinds =>
      quote_of_run hkind henter (skeleton_run inner hrun) hskipped).bind fun b₃ h₃ =>
        ih' h₃ hrest hrestEvents

theorem exists_finish (h : b.Placed source) : ∃ document, b.finish = some document := by
  obtain ⟨b₁, hclose, h₁⟩ := h.closeImplicit
  obtain ⟨b₂, hflush, h₂⟩ := h₁.flushDefinitions none
  obtain ⟨trailing, htrailing⟩ := h₂.cursor.exists_gap (.length source) false
  simp only [Builder.finish, hclose, hflush, h₂.source_eq, htrailing, Option.bind_eq_bind,
    Option.bind_some]
  exact ⟨_, rfl⟩

end Placed

end Builder

/-- Balanced events build a document, if every container is left with the range it is entered with
and all ranges fit the source. -/
theorem EventForest.exists_document {source : String} {definitions : List ByteRange}
    {forest : EventForest} (hpaired : forest.Paired)
    (hevents : ∀ e ∈ forest.events, e.range.Fits source.toList)
    (hdefinitions : ∀ range ∈ definitions, range.Fits source.toList) (options : ParseOptions)
    (registry : EmojiRegistry) :
    ∃ document,
      Document.ofEvents? source definitions options forest.events registry = some document := by
  obtain ⟨b, hrun, h⟩ :=
    (Builder.Placed.start hdefinitions { options with registry }).run forest hpaired hevents
  obtain ⟨document, hfinish⟩ := h.exists_finish
  exact ⟨document, Option.bind_eq_some_iff.2 ⟨b, hrun, hfinish⟩⟩

/-- **Building never looks past the source.** Balanced events build a document, if every container
is left with the range it is entered with and the ranges of the events and of the link definitions
have their ends between characters of the source, in the right order: no look at the source is
refused. It does not matter how the ranges of different events lie to one another. Nor is the
column of a quote, the one difference of positions that is taken, ever below zero, since no line
starts behind a position in it. -/
theorem Document.ofEvents?_of_fits (source : String) (definitions : List ByteRange)
    (options : ParseOptions) (registry : EmojiRegistry) (forest : EventForest)
    (hpaired : forest.Paired) (hevents : ∀ e ∈ forest.events, e.range.Fits source.toList)
    (hdefinitions : ∀ range ∈ definitions, range.Fits source.toList) :
    (∃ document, ofEvents? source definitions options forest.events registry = some document) ∧
      ∀ position lineStart, lineStart? source.toList position = some lineStart →
        lineStart ≤ position := by
  refine ⟨EventForest.exists_document hpaired hevents hdefinitions options registry, ?_⟩
  intro position lineStart h
  obtain ⟨before, htake, -⟩ := Option.map_eq_some_iff.1 h
  obtain ⟨start, hstart, hle, -⟩ := (IsPosition.of_takeBytes htake).exists_lineStart
  obtain rfl := Option.some.inj (hstart.symm.trans h)
  exact hle

/-- A quote whose text lies before it and whose last character takes two bytes. -/
theorem Document.ofEvents?_of_fits_disordered :
    let forest : EventForest := .enclose .blockQuote ⟨5, 7⟩ ⟨5, 7⟩
      (.event ⟨.text "a", ⟨0, 1⟩⟩ (by simp) (by simp) .nil) .nil
    (∃ document, ofEvents? "a\r\nb>é" [⟨1, 7⟩, ⟨3, 4⟩] { maxDepth := 1 } forest.events =
        some document) ∧
      ∀ position lineStart, lineStart? "a\r\nb>é".toList position = some lineStart →
        lineStart ≤ position :=
  Document.ofEvents?_of_fits _ _ _ knownEmoji _ ⟨rfl, trivial, trivial⟩ (by decide) (by decide)

end MarkdownSpans
