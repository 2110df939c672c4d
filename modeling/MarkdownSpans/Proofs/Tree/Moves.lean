import Mathlib.Logic.Relation
import MarkdownSpans.Proofs.Document.Nesting
import MarkdownSpans.Tree.Builder

/-!
# What builders do

At every event a builder does some of a dozen things one after another: it opens, fills or ends a
leaf, puts a block into the innermost container, or opens or leaves a container (`Builder.Move`).
What is opened fits the limit on nesting. So what each of these things keeps is kept by events of
any kind in any order (`Builder.moves_run`).
-/

namespace MarkdownSpans

open Relation (ReflTransGen)

/-- Neither blocks nor inlines stand in a block. -/
inductive Block.Bare : Block → Prop
  | codeBlock (lines : List Line) (fence : Option Fence) (trivia : Trivia) :
    Bare (.codeBlock lines fence trivia)
  | htmlBlock (lines : List Line) (trivia : Trivia) : Bare (.htmlBlock lines trivia)
  | thematicBreak (content : String) (newline : Newline) (trivia : Trivia) :
    Bare (.thematicBreak content newline trivia)
  | linkDefinitionGroup (definitions : List LinkDefinition) (trivia : Trivia) :
    Bare (.linkDefinitionGroup definitions trivia)
  | emptyBlock (trivia : Trivia) : Bare (.emptyBlock trivia)

/-- The items of an open list so far, the latest first. -/
def ContainerKind.items : ContainerKind → List ListItem
  | list _ items => items
  | _ => []

/-- One thing that is done to an open leaf. An inline container is opened only inside of fewer than
so many others. -/
inductive Leaf.Move (limit : Nat) (leaf : Leaf) : Leaf → Prop
  /-- Its text grows, or it is extended to a position. -/
  | extend (kind : LeafKind) (stop : Nat) : Move limit leaf { leaf with kind, stop }
  | push {inline : Inline} (h : inline.Within 0) : Move limit leaf (leaf.push inline)
  | openFrame (kind : FrameKind) (h : leaf.frames.length < limit) :
    Move limit leaf (leaf.openFrame kind)
  | closeFrame : Move limit leaf leaf.closeFrame

namespace Builder

/-- The line break at the end of a paragraph. -/
def paragraphEnding (newline : Newline) : List Inline :=
  if newline.isAbsent then [] else [.lineBreak newline false]

/-- A container of a kind may be opened, in a list with room for its items. -/
def HasRoom (b : Builder) : ContainerKind → Prop
  | .document => False
  | .quote _ => b.depth + 1 ≤ b.options.maxDepth
  | .list _ items => items = [] ∧ b.depth + 2 ≤ b.options.maxDepth
  | .item => True

theorem HasRoom.items_eq {b : Builder} {kind : ContainerKind} (h : b.HasRoom kind) :
    kind.items = [] := by
  cases kind with
  | list style items => exact h.1
  | _ => rfl

/-- One thing that a builder does. -/
inductive Move (b : Builder) : Builder → Prop
  /-- The positions, the definitions that remain and the counts of what is not opened change. -/
  | note (definitions : List ByteRange) (cursor skippedContainers skippedFrames : Nat) :
    Move b { b with definitions, cursor, skippedContainers, skippedFrames }
  | pushBlock {block : Block} (h : block.Bare) : Move b (b.pushBlock block)
  | openLeaf (kind : LeafKind) (start : Nat) (lines : Option (List Line)) :
    Move b (b.openLeaf kind start lines)
  | mapLeaf {f : Leaf → Leaf} (h : ∀ leaf ∈ b.leaf, leaf.Move b.options.maxDepth (f leaf)) :
    Move b (b.mapLeaf f)
  | dropLeaf : Move b { b with leaf := none }
  | endParagraph {leaf : Leaf} (h : leaf ∈ b.leaf) (newline : Newline) (trivia : Trivia) :
    Move b (({ b with leaf := none } : Builder).pushBlock
      (.paragraph (leaf.inlines ++ paragraphEnding newline) trivia))
  | endHeading {leaf : Leaf} (h : leaf ∈ b.leaf) (level : Nat) (newline : Newline)
    (trivia : Trivia) :
    Move b (({ b with leaf := none } : Builder).pushBlock
      (.heading level leaf.inlines newline trivia))
  | pushContainer {kind : ContainerKind} (h : b.HasRoom kind) (lines : Option (List Line)) :
    Move b (b.pushContainer kind lines)
  | markLoose : Move b b.markLoose
  | dropContainer {c : Container} {rest : List Container} (h : b.containers = c :: rest) :
    Move b { b with containers := rest }
  | endQuote {c : Container} {rest : List Container} (h : b.containers = c :: rest) {start : Nat}
    (hquote : c.kind = .quote start) {blocks : List Block}
    (hblocks : blocks = c.reversed ∨ ∃ after, blocks = setLinesAfter after c.reversed)
    (lines : List QuoteLine) (trivia : Trivia) :
    Move b (({ b with containers := rest } : Builder).pushBlock
      (.quote lines blocks.reverse trivia))
  | endItem {c outer : Container} {rest : List Container} (h : b.containers = c :: outer :: rest)
    {style : ListStyle} {items : List ListItem} (hlist : outer.kind = .list style items) :
    Move b { b with containers :=
      { outer with kind := .list style (.mk c.reversed.reverse .tracked :: items) } :: rest }
  | endList {c : Container} {rest : List Container} (h : b.containers = c :: rest)
    {style : ListStyle} {items : List ListItem} (hlist : c.kind = .list style items)
    (trivia : Trivia) :
    Move b (({ b with containers := rest } : Builder).pushBlock
      (.list style items.reverse trivia))

/-- Some things that a builder does one after another. -/
abbrev Moves : Builder → Builder → Prop := ReflTransGen Move

variable {b b' : Builder} {range : ByteRange}

/-! ### Blocks -/

theorem moves_cursor (cursor : Nat) (h : Moves b b') : Moves b { b' with cursor } :=
  h.tail (.note b'.definitions cursor b'.skippedContainers b'.skippedFrames)

theorem moves_closeParagraph {stop : Nat} (h : b.closeParagraph stop = some b') : Moves b b' := by
  unfold closeParagraph at h
  split at h
  · cases h
    exact .refl
  next leaf hleaf =>
    simp only [Option.bind_eq_bind, Option.bind_eq_some_iff, Option.some.injEq] at h
    obtain ⟨last, -, rfl⟩ := h
    exact moves_cursor last.stop (.single (.endParagraph hleaf last.newline _))

theorem moves_closeImplicit (h : b.closeImplicit = some b') : Moves b b' := by
  unfold closeImplicit at h
  split at h
  · exact moves_closeParagraph h
  · cases h
    exact .refl

theorem moves_flushDefinitions {limit : Option Nat} (h : b.flushDefinitions limit = some b') :
    Moves b b' := by
  simp only [flushDefinitions, Option.bind_eq_bind, Option.bind_eq_some_iff,
    Option.some.injEq] at h
  obtain ⟨⟨definitions, ranges, cursor⟩, -, rfl⟩ := h
  have noted : Moves b { b with definitions := ranges, cursor } :=
    .single (.note ranges cursor b.skippedContainers b.skippedFrames)
  split
  · exact noted
  · exact noted.tail (.pushBlock (.linkDefinitionGroup _ _))

theorem moves_beginBlock {start : Nat} {lines : Option (List Line)}
    (h : b.beginBlock start = some (lines, b')) : Moves b b' := by
  simp only [beginBlock, Option.bind_eq_bind, Option.bind_eq_some_iff, Option.some.injEq,
    Prod.mk.injEq] at h
  obtain ⟨b₁, hclose, b₂, hflush, lineStart, -, gap, -, -, rfl⟩ := h
  exact moves_cursor _ ((moves_closeImplicit hclose).trans (moves_flushDefinitions hflush))

theorem moves_addRule (h : b.addRule range = some b') : Moves b b' := by
  simp only [addRule, Option.bind_eq_bind, Option.bind_eq_some_iff, Option.some.injEq] at h
  obtain ⟨⟨lines, b₁⟩, hbegin, last, -, content, -, rfl⟩ := h
  exact moves_cursor _ ((moves_beginBlock hbegin).tail (.pushBlock (.thematicBreak _ _ _)))

/-! ### Leaf blocks -/

theorem moves_beginLeaf {kind : LeafKind} {start : Nat} (h : b.beginLeaf kind start = some b') :
    Moves b b' := by
  simp only [beginLeaf, Option.bind_eq_bind, Option.bind_eq_some_iff, Option.some.injEq] at h
  obtain ⟨⟨lines, b₁⟩, hbegin, rfl⟩ := h
  exact (moves_beginBlock hbegin).tail (.openLeaf kind start lines)

theorem moves_enterParagraph (h : b.enterParagraph range = some b') : Moves b b' := by
  simp only [enterParagraph, Option.bind_eq_bind, Option.bind_eq_some_iff, Option.some.injEq] at h
  obtain ⟨⟨lines, b₁⟩, hbegin, rfl⟩ := h
  exact ((moves_beginBlock hbegin).tail .markLoose).tail (.openLeaf _ _ lines)

theorem moves_closeHeading (h : b.closeHeading range = some b') : Moves b b' := by
  unfold closeHeading at h
  split at h
  next level _ _ lines root frames hleaf =>
    simp only [Option.bind_eq_bind, Option.bind_eq_some_iff, Option.some.injEq] at h
    obtain ⟨last, -, rfl⟩ := h
    exact moves_cursor _ (.single (.endHeading hleaf level last.newline _))
  · cases h
    exact .single .dropLeaf

theorem moves_closeCode (h : b.closeCode range = some b') : Moves b b' := by
  have dropped : Moves b { b with leaf := none } := .single .dropLeaf
  unfold closeCode at h
  split at h
  next text info _ _ lines _ _ hleaf =>
    obtain ⟨last, -, h⟩ := Option.bind_eq_some_iff.1 h
    -- Only a block with an info text has fence lines to look for.
    split at h <;> obtain ⟨fence, -, h⟩ := Option.bind_eq_some_iff.1 h <;> cases h <;>
      exact moves_cursor _ (dropped.tail (.pushBlock (.codeBlock _ _ _)))
  · cases h
    exact dropped

theorem moves_closeHtml (h : b.closeHtml range = some b') : Moves b b' := by
  have dropped : Moves b { b with leaf := none } := .single .dropLeaf
  unfold closeHtml at h
  split at h
  · simp only [Option.bind_eq_bind, Option.bind_eq_some_iff, Option.some.injEq] at h
    obtain ⟨last, -, rfl⟩ := h
    exact moves_cursor _ (dropped.tail (.pushBlock (.htmlBlock _ _)))
  · cases h
    exact dropped

/-! ### Inlines -/

theorem moves_ensureLeaf (h : b.ensureLeaf range = some b') : Moves b b' := by
  have extended (b : Builder) :
      b.Move (b.mapLeaf fun leaf => { leaf with stop := max leaf.stop range.stop }) :=
    .mapLeaf fun leaf _ => .extend leaf.kind _
  simp only [ensureLeaf, Option.bind_eq_bind] at h
  split at h
  · obtain ⟨b₁, hbegin, h⟩ := Option.bind_eq_some_iff.1 h
    cases h
    exact (moves_beginLeaf hbegin).tail (extended b₁)
  · cases h
    exact .single (extended b)

theorem moves_addInline {inline : Inline} (hinline : inline.Within 0)
    (h : b.addInline inline range = some b') : Moves b b' := by
  simp only [addInline, Option.bind_eq_bind, Option.bind_eq_some_iff, Option.some.injEq] at h
  obtain ⟨b₁, hleaf, rfl⟩ := h
  exact (moves_ensureLeaf hleaf).tail (.mapLeaf fun leaf _ => .push hinline)

theorem moves_addText {content : String} (h : b.addText content range = some b') :
    Moves b b' := by
  unfold addText at h
  split at h
  · cases h
    exact .single (.mapLeaf fun leaf _ => .extend _ leaf.stop)
  · cases h
    exact .single (.mapLeaf fun leaf _ => .extend _ leaf.stop)
  · simp only [Option.bind_eq_bind, Option.bind_eq_some_iff] at h
    obtain ⟨raw, -, before, -, hadd⟩ := h
    refine moves_addInline ?_ hadd
    unfold textInline
    split
    · exact .htmlEntity _ content
    · split
      · exact .literal _
      · exact .literal content

theorem moves_addHtml {content : String} (h : b.addHtml content range = some b') :
    Moves b b' := by
  unfold addHtml at h
  split at h
  · cases h
    exact .single (.mapLeaf fun leaf _ => .extend _ leaf.stop)
  · exact moves_addInline (.htmlInline content) h

theorem moves_addBreak {hard : Bool} (h : b.addBreak hard range = some b') : Moves b b' := by
  simp only [addBreak, Option.bind_eq_bind, Option.bind_eq_some_iff] at h
  obtain ⟨raw, -, hadd⟩ := h
  exact moves_addInline (.lineBreak _ hard) hadd

theorem moves_enterFrame {kind : FrameKind} (h : b.enterFrame kind range = some b') :
    Moves b b' := by
  simp only [enterFrame, Option.bind_eq_bind, Option.bind_eq_some_iff] at h
  obtain ⟨b₁, hensure, h⟩ := h
  split at h
  · cases h
    exact (moves_ensureLeaf hensure).tail (.note b₁.definitions b₁.cursor b₁.skippedContainers _)
  next hfits =>
    cases h
    refine (moves_ensureLeaf hensure).tail (.mapLeaf fun leaf hleaf => .openFrame kind ?_)
    rw [Option.mem_def] at hleaf
    simp only [hleaf, Option.any_some, Bool.or_eq_true, decide_eq_true_eq, not_or] at hfits
    omega

theorem moves_leaveFrame (b : Builder) : Moves b b.leaveFrame := by
  unfold leaveFrame
  split
  · exact .single (.note b.definitions b.cursor b.skippedContainers _)
  · exact .single (.mapLeaf fun leaf _ => .closeFrame)

/-! ### Containers -/

theorem moves_skipContainer (b : Builder) : Moves b b.skipContainer :=
  .single (.note b.definitions b.cursor _ b.skippedFrames)

/-- What tells whether a container fits. -/
def room (b : Builder) : Nat × Nat := (b.containers.length, b.options.maxDepth)

theorem room_pushBlock (block : Block) : (b.pushBlock block).room = b.room := by
  unfold pushBlock
  split
  · rfl
  next hcons => simp [room, hcons]

theorem room_closeImplicit (h : b.closeImplicit = some b') : b'.room = b.room := by
  unfold closeImplicit at h
  split at h
  next hleaf =>
    simp only [closeParagraph, hleaf, Option.bind_eq_bind, Option.bind_eq_some_iff,
      Option.some.injEq] at h
    obtain ⟨last, -, rfl⟩ := h
    exact room_pushBlock _
  · cases h
    rfl

theorem room_beginBlock {start : Nat} {lines : Option (List Line)}
    (h : b.beginBlock start = some (lines, b')) : b'.room = b.room := by
  simp only [beginBlock, Option.bind_eq_bind, Option.bind_eq_some_iff, Option.some.injEq,
    Prod.mk.injEq] at h
  obtain ⟨b₁, hclose, b₂, hflush, lineStart, -, gap, -, -, rfl⟩ := h
  simp only [flushDefinitions, Option.bind_eq_bind, Option.bind_eq_some_iff,
    Option.some.injEq] at hflush
  obtain ⟨⟨definitions, ranges, cursor⟩, -, rfl⟩ := hflush
  rw [← room_closeImplicit hclose]
  by_cases hnone : definitions.isEmpty
  · simp [room, hnone]
  · simpa [room, hnone] using room_pushBlock (b := { b₁ with definitions := ranges, cursor }) _

/-- A container that fits before a block begins fits there. -/
theorem depth_add_le {levels : Nat} (hfits : b.fits levels) (h : b'.room = b.room) :
    b'.depth + levels ≤ b'.options.maxDepth := by
  obtain ⟨length, limit⟩ := Prod.mk.inj h
  unfold fits depth at hfits
  rw [Bool.and_eq_true, decide_eq_true_eq] at hfits
  rw [depth, length, limit]
  exact hfits.2

theorem moves_enterQuote (h : b.enterQuote range = some b') : Moves b b' := by
  unfold enterQuote at h
  split at h
  next hfits =>
    simp only [Option.bind_eq_bind, Option.bind_eq_some_iff, Option.some.injEq] at h
    obtain ⟨⟨lines, b₁⟩, hbegin, rfl⟩ := h
    have hroom : b₁.HasRoom (.quote range.start) := depth_add_le hfits (room_beginBlock hbegin)
    exact (moves_beginBlock hbegin).tail (.pushContainer hroom lines)
  · cases h
    exact moves_skipContainer b

theorem moves_enterList {first : Option Nat} (h : b.enterList first range = some b') :
    Moves b b' := by
  unfold enterList at h
  split at h
  next hfits =>
    simp only [Option.bind_eq_bind, Option.bind_eq_some_iff, Option.some.injEq] at h
    obtain ⟨⟨lines, b₁⟩, hbegin, rest, -, rfl⟩ := h
    have hroom : b₁.HasRoom (.list (listStyle first rest) []) :=
      ⟨rfl, depth_add_le hfits (room_beginBlock hbegin)⟩
    exact (moves_beginBlock hbegin).tail (.pushContainer hroom lines)
  · cases h
    exact moves_skipContainer b

theorem moves_enterItem (h : b.enterItem range = some b') : Moves b b' := by
  unfold enterItem at h
  split at h
  · cases h
    exact moves_skipContainer b
  · simp only [Option.bind_eq_bind, Option.bind_eq_some_iff, Option.some.injEq] at h
    obtain ⟨b₁, hclose, rfl⟩ := h
    have hroom : ({ b₁ with cursor := range.start } : Builder).HasRoom .item := trivial
    exact (moves_cursor _ (moves_closeImplicit hclose)).tail (.pushContainer hroom none)

theorem moves_leaveQuote (h : b.leaveQuote range = some b') : Moves b b' := by
  simp only [leaveQuote, Option.bind_eq_bind, Option.bind_eq_some_iff] at h
  obtain ⟨b₁, hclose, b₂, hflush, last, -, trailing, -, h⟩ := h
  have flushed : Moves b b₂ := (moves_closeImplicit hclose).trans (moves_flushDefinitions hflush)
  split at h
  · cases h
    exact flushed
  next c rest hcons =>
    -- What is left in place of a quote may be any container: only a quote becomes a block.
    split at h
    next start hquote =>
      simp only [Option.bind_eq_some_iff, Option.some.injEq] at h
      obtain ⟨lineStart, -, text, -, rfl⟩ := h
      refine moves_cursor _ (flushed.tail (.endQuote hcons hquote ?_ _ _))
      split
      · exact .inl rfl
      · exact .inr ⟨trailing, rfl⟩
    · cases h
      exact flushed.tail (.dropContainer hcons)

theorem moves_leaveItem (h : b.leaveItem range = some b') : Moves b b' := by
  simp only [leaveItem, Option.bind_eq_bind, Option.bind_eq_some_iff] at h
  obtain ⟨b₁, hclose, b₂, hflush, h⟩ := h
  have flushed : Moves b b₂ := (moves_closeImplicit hclose).trans (moves_flushDefinitions hflush)
  split at h
  · cases h
    exact flushed
  next hcons =>
    cases h
    exact flushed.tail (.endItem hcons rfl)
  next hcons =>
    cases h
    exact flushed.tail (.dropContainer hcons)

theorem moves_leaveList (b : Builder) : Moves b b.leaveList := by
  unfold leaveList
  split
  · exact .refl
  next hcons => exact .single (.endList hcons rfl _)
  next hcons => exact .single (.dropContainer hcons)

/-! ### Events -/

theorem moves_enter {tag : Tag} (h : b.enter tag range = some b') : Moves b b' := by
  cases tag with
  | paragraph => exact moves_enterParagraph h
  | heading | codeBlock | htmlBlock => exact moves_beginLeaf h
  | blockQuote => exact moves_enterQuote h
  | list first => exact moves_enterList h
  | item => exact moves_enterItem h
  | emphasis | strong | strikethrough =>
    simp only [enter, Option.bind_eq_bind, Option.bind_eq_some_iff] at h
    obtain ⟨rest, -, h⟩ := h
    exact moves_enterFrame h
  | link | image => exact moves_enterFrame h
  | other =>
    cases h
    exact .refl

theorem moves_leave {kind : TagKind} (h : b.leave kind range = some b') : Moves b b' := by
  unfold leave at h
  split at h
  · cases h
    exact .single (.note b.definitions b.cursor _ b.skippedFrames)
  · cases kind with
    | paragraph => exact moves_closeParagraph h
    | heading => exact moves_closeHeading h
    | codeBlock => exact moves_closeCode h
    | htmlBlock => exact moves_closeHtml h
    | blockQuote => exact moves_leaveQuote h
    | item => exact moves_leaveItem h
    | list =>
      cases h
      exact moves_leaveList b
    | emphasis | strong | strikethrough | link | image =>
      cases h
      exact moves_leaveFrame b
    | other =>
      cases h
      exact .refl

theorem moves_step {e : RangedEvent} (h : b.step e = some b') : Moves b b' := by
  unfold step at h
  split at h
  · exact moves_enter h
  · exact moves_leave h
  · exact moves_addText h
  · exact moves_addInline (.codeSpan _) h
  · exact moves_addHtml h
  · exact moves_addInline (.htmlInline _) h
  · exact moves_addBreak h
  · exact moves_addBreak h
  · exact moves_addRule h
  · cases h
    exact .refl

/-- Events of any kind, in any order. -/
theorem moves_run {events : List RangedEvent} (h : b.run events = some b') : Moves b b' := by
  induction events generalizing b with
  | nil =>
    cases h
    exact .refl
  | cons e rest ih =>
    rw [run_cons, Option.bind_eq_some_iff] at h
    obtain ⟨b₁, hstep, hrest⟩ := h
    exact (moves_step hstep).trans (ih hrest)

/-- What holds of some blocks, whatever their trivia, holds when lines are recorded after the
last. -/
theorem forall_mem_setLinesAfter {P : Block → Prop}
    (htrivia : ∀ block trivia, P block → P (block.withTrivia trivia)) (lines : List Line)
    {blocks : List Block} (h : ∀ block ∈ blocks, P block) :
    ∀ block ∈ setLinesAfter lines blocks, P block := by
  cases blocks with
  | nil => exact h
  | cons last rest =>
    rw [List.forall_mem_cons] at h
    exact List.forall_mem_cons.2 ⟨htrivia _ _ h.1, h.2⟩

/-- What holds of bare blocks and of all in the containers that are open at the end, whatever their
trivia, holds of the blocks of the document. -/
theorem moves_finish {document : Document} (h : b.finish = some document) :
    ∃ b', Moves b b' ∧ ∀ P : Block → Prop,
      (∀ block trivia, P block → P (block.withTrivia trivia)) → (∀ block, block.Bare → P block) →
      (∀ c ∈ b'.containers, ∀ block ∈ c.reversed, P block) →
      ∀ block ∈ document.blocks, P block := by
  simp only [finish, Option.bind_eq_bind, Option.bind_eq_some_iff, Option.some.injEq] at h
  obtain ⟨b₁, hclose, b₂, hflush, trailing, -, rfl⟩ := h
  refine ⟨b₂, (moves_closeImplicit hclose).trans (moves_flushDefinitions hflush), ?_⟩
  intro P htrivia hbare hcontainers block hblock
  have hopen : ∀ block ∈ b₂.openBlocks, P block := by
    intro block hblock
    obtain ⟨c, hc, hmem⟩ := List.mem_flatMap.1 hblock
    exact hcontainers c hc block hmem
  rw [List.mem_reverse] at hblock
  split at hblock
  · exact hopen block hblock
  · split at hblock
    · rw [List.mem_singleton.1 hblock]
      exact hbare _ (.emptyBlock _)
    · exact forall_mem_setLinesAfter htrivia trailing hopen block hblock

end Builder

end MarkdownSpans
