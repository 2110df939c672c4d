import MarkdownSpans.Proofs.Document.Groups
import MarkdownSpans.Proofs.Tree.Forest

/-!
# Work inside of a container

Between the events that enter and leave block containers, a builder only works inside of the
innermost one: `Builder.Fills` is closed under the four things it does there. Such work leaves the
skeleton of the open containers as it is, and so do balanced events (`Builder.skeleton_run`): what
they enter they leave again, whether it was opened or only counted.
-/

namespace MarkdownSpans

/-- The kind of a container without what a list gathers. -/
def ContainerKind.bare : ContainerKind → ContainerKind
  | list _ _ => list {} []
  | kind => kind

namespace Builder

/-- Work inside of the innermost container: the leaf and the cursor move, blocks without link
definitions are added and a list is marked loose; if definitions may be flushed, those before some
limit are put into the document. -/
inductive Fills (flushing : Prop) : Builder → Builder → Prop
  | move (b : Builder) (leaf : Option Leaf) (cursor : Nat) :
    Fills flushing b { b with leaf, cursor }
  | pushBlock (b : Builder) {block : Block} (h : block.groups = []) :
    Fills flushing b (b.pushBlock block)
  | markLoose (b : Builder) : Fills flushing b b.markLoose
  | flushDefinitions {b b' : Builder} {limit : Option Nat} (hflushing : flushing)
    (h : b.flushDefinitions limit = some b') : Fills flushing b b'
  | trans {b b' b'' : Builder} (h : Fills flushing b b') (h' : Fills flushing b' b'') :
    Fills flushing b b''

variable {p : Prop} {b b' : Builder} {range : ByteRange}

theorem Fills.refl (b : Builder) : Fills p b b := .move b b.leaf b.cursor

theorem Fills.mono {q : Prop} (h : Fills p b b') (hpq : p → q) : Fills q b b' := by
  induction h with
  | move b leaf cursor => exact .move b leaf cursor
  | pushBlock b hblock => exact .pushBlock b hblock
  | markLoose b => exact .markLoose b
  | flushDefinitions hflushing hflush => exact .flushDefinitions (hpq hflushing) hflush
  | trans _ _ ih ih' => exact .trans ih ih'

/-! ### Blocks -/

/-- A leaf is closed as a block without link definitions. -/
theorem fills_pushBlock {block : Block} (h : block.groups = []) (cursor : Nat) :
    Fills p b
      { ({ b with leaf := none } : Builder).pushBlock block with cursor } :=
  .trans (.move b none b.cursor) (.trans (.pushBlock _ h) (.move _ _ cursor))

theorem fills_closeParagraph {stop : Nat} (h : b.closeParagraph stop = some b') :
    Fills p b b' := by
  unfold closeParagraph at h
  split at h
  · cases h
    exact .refl b
  · simp only [Option.bind_eq_bind, Option.bind_eq_some_iff, Option.some.injEq] at h
    obtain ⟨last, -, rfl⟩ := h
    exact fills_pushBlock (by rw [Block.groups]) last.stop

theorem fills_closeImplicit (h : b.closeImplicit = some b') : Fills p b b' := by
  unfold closeImplicit at h
  split at h
  · exact fills_closeParagraph h
  · cases h
    exact .refl b

theorem fills_beginBlock {start : Nat} {lines : Option (List Line)}
    (h : b.beginBlock start = some (lines, b')) : Fills True b b' := by
  simp only [beginBlock, Option.bind_eq_bind, Option.bind_eq_some_iff, Option.some.injEq,
    Prod.mk.injEq] at h
  obtain ⟨b₁, hclose, b₂, hflush, lineStart, -, gap, -, -, rfl⟩ := h
  exact .trans (fills_closeImplicit hclose) (.trans (.flushDefinitions trivial hflush)
    (.move b₂ b₂.leaf _))

theorem fills_beginLeaf {kind : LeafKind} {start : Nat} (h : b.beginLeaf kind start = some b') :
    Fills True b b' := by
  simp only [beginLeaf, Option.bind_eq_bind, Option.bind_eq_some_iff, Option.some.injEq] at h
  obtain ⟨⟨lines, b₁⟩, hbegin, rfl⟩ := h
  exact .trans (fills_beginBlock hbegin) (.move b₁ _ b₁.cursor)

theorem fills_mapLeaf (f : Leaf → Leaf) : Fills p b (b.mapLeaf f) := .move b _ b.cursor

theorem fills_enterParagraph (h : b.enterParagraph range = some b') : Fills True b b' := by
  simp only [enterParagraph, Option.bind_eq_bind, Option.bind_eq_some_iff, Option.some.injEq] at h
  obtain ⟨⟨lines, b₁⟩, hbegin, rfl⟩ := h
  exact .trans (fills_beginBlock hbegin) (.trans (.markLoose b₁) (.move _ _ b₁.markLoose.cursor))

theorem fills_addRule (h : b.addRule range = some b') : Fills True b b' := by
  simp only [addRule, Option.bind_eq_bind, Option.bind_eq_some_iff, Option.some.injEq] at h
  obtain ⟨⟨lines, b₁⟩, hbegin, last, -, content, -, rfl⟩ := h
  exact .trans (fills_beginBlock hbegin)
    (.trans (.pushBlock b₁ (by rw [Block.groups])) (.move _ _ last.stop))

theorem fills_closeHeading (h : b.closeHeading range = some b') : Fills p b b' := by
  unfold closeHeading at h
  split at h
  · simp only [Option.bind_eq_bind, Option.bind_eq_some_iff, Option.some.injEq] at h
    obtain ⟨last, -, rfl⟩ := h
    exact fills_pushBlock (by rw [Block.groups]) last.stop
  · cases h
    exact .move b none b.cursor

theorem fills_closeCode (h : b.closeCode range = some b') : Fills p b b' := by
  unfold closeCode at h
  split at h
  · obtain ⟨last, -, h⟩ := Option.bind_eq_some_iff.1 h
    split at h <;> obtain ⟨fence, -, h⟩ := Option.bind_eq_some_iff.1 h <;> cases h <;>
      exact fills_pushBlock (by rw [Block.groups]) last.stop
  · cases h
    exact .move b none b.cursor

theorem fills_closeHtml (h : b.closeHtml range = some b') : Fills p b b' := by
  unfold closeHtml at h
  split at h
  · simp only [Option.bind_eq_bind, Option.bind_eq_some_iff, Option.some.injEq] at h
    obtain ⟨last, -, rfl⟩ := h
    exact fills_pushBlock (by rw [Block.groups]) last.stop
  · cases h
    exact .move b none b.cursor

/-! ### Inlines -/

theorem fills_ensureLeaf (h : b.ensureLeaf range = some b') : Fills True b b' := by
  simp only [ensureLeaf, Option.bind_eq_bind] at h
  split at h
  · obtain ⟨b₁, hbegin, h⟩ := Option.bind_eq_some_iff.1 h
    cases h
    exact .trans (fills_beginLeaf hbegin) (fills_mapLeaf _)
  · cases h
    exact fills_mapLeaf _

theorem fills_addInline {inline : Inline} (h : b.addInline inline range = some b') :
    Fills True b b' := by
  simp only [addInline, Option.bind_eq_bind, Option.bind_eq_some_iff, Option.some.injEq] at h
  obtain ⟨b₁, hleaf, rfl⟩ := h
  exact .trans (fills_ensureLeaf hleaf) (fills_mapLeaf _)

theorem fills_addText {content : String} (h : b.addText content range = some b') :
    Fills True b b' := by
  unfold addText at h
  split at h
  · cases h
    exact fills_mapLeaf _
  · cases h
    exact fills_mapLeaf _
  · simp only [Option.bind_eq_bind, Option.bind_eq_some_iff] at h
    obtain ⟨raw, -, before, -, hadd⟩ := h
    exact fills_addInline hadd

theorem fills_addHtml {content : String} (h : b.addHtml content range = some b') :
    Fills True b b' := by
  unfold addHtml at h
  split at h
  · cases h
    exact fills_mapLeaf _
  · exact fills_addInline h

theorem fills_addBreak {hard : Bool} (h : b.addBreak hard range = some b') : Fills True b b' := by
  simp only [addBreak, Option.bind_eq_bind, Option.bind_eq_some_iff] at h
  obtain ⟨raw, -, hadd⟩ := h
  exact fills_addInline hadd

/-- Events other than those that enter and leave containers work inside of one. -/
theorem fills_step {e : RangedEvent} (henter : ∀ tag, e.event ≠ .enter tag)
    (hleave : ∀ kind, e.event ≠ .leave kind) (h : b.step e = some b') : Fills True b b' := by
  unfold step at h
  split at h
  next tag htag => exact absurd htag (henter tag)
  next kind hkind => exact absurd hkind (hleave kind)
  · exact fills_addText h
  · exact fills_addInline h
  · exact fills_addHtml h
  · exact fills_addInline h
  · exact fills_addBreak h
  · exact fills_addBreak h
  · exact fills_addRule h
  · cases h
    exact .refl b

/-! ### Entering and leaving -/

/-- The kind of container that is opened for the tag of a block container. -/
def Opens (range : ByteRange) (kind : ContainerKind) : Tag → Prop
  | .blockQuote => kind = .quote range.start
  | .list _ => ∃ style, kind = .list style []
  | .item => kind = .item
  | _ => False

/-- Whether a block container is opened when it is entered, and not only counted. -/
def opens (b : Builder) : TagKind → Bool
  | .blockQuote => b.fits 1
  | .list => b.fits 2
  | .item => b.skippedContainers == 0
  | _ => false

/-- While containers are counted, none is opened. -/
theorem none_skipped_of_opens {kind : TagKind} (h : b.opens kind = true) :
    b.skippedContainers = 0 := by
  have fits {levels : Nat} (h : b.fits levels = true) : b.skippedContainers = 0 := by
    unfold Builder.fits at h
    rw [Bool.and_eq_true] at h
    exact beq_iff_eq.1 h.1
  cases kind with
  | blockQuote | list => exact fits h
  | item => exact beq_iff_eq.1 h
  | _ => cases h

/-- A block container is counted, or it is opened behind work inside of the one around it. An item
does not put definitions into the document. -/
theorem enter_container {tag : Tag} (htag : isBlockContainer tag.kind)
    (h : b.enter tag range = some b') :
    b.opens tag.kind = false ∧ b' = b.skipContainer ∨
      b.opens tag.kind = true ∧ ∃ b₁ kind lines, Fills (tag.kind ≠ .item) b b₁ ∧
        Opens range kind tag ∧ b' = b₁.pushContainer kind lines := by
  cases tag with
  | blockQuote =>
    simp only [enter, enterQuote] at h
    split at h
    next hfits =>
      simp only [Option.bind_eq_bind, Option.bind_eq_some_iff, Option.some.injEq] at h
      obtain ⟨⟨lines, b₁⟩, hbegin, rfl⟩ := h
      exact .inr ⟨hfits, b₁, _, lines, (fills_beginBlock hbegin).mono (by simp [Tag.kind]), rfl, rfl⟩
    next hfits =>
      cases h
      exact .inl ⟨Bool.eq_false_iff.2 hfits, rfl⟩
  | list first =>
    simp only [enter, enterList] at h
    split at h
    next hfits =>
      simp only [Option.bind_eq_bind, Option.bind_eq_some_iff, Option.some.injEq] at h
      obtain ⟨⟨lines, b₁⟩, hbegin, rest, -, rfl⟩ := h
      exact .inr ⟨hfits, b₁, _, lines, (fills_beginBlock hbegin).mono (by simp [Tag.kind]), ⟨_, rfl⟩, rfl⟩
    next hfits =>
      cases h
      exact .inl ⟨Bool.eq_false_iff.2 hfits, rfl⟩
  | item =>
    simp only [enter, enterItem] at h
    split at h
    next hskipped =>
      cases h
      exact .inl ⟨beq_eq_false_iff_ne.2 (by omega), rfl⟩
    next hskipped =>
      simp only [Option.bind_eq_bind, Option.bind_eq_some_iff, Option.some.injEq] at h
      obtain ⟨b₁, hclose, rfl⟩ := h
      exact .inr ⟨beq_iff_eq.2 (by omega), _, _, none,
        .trans (fills_closeImplicit hclose) (.move b₁ b₁.leaf range.start), rfl, rfl⟩
  | _ => cases htag

/-- The tags of inline containers. -/
def isInlineContainer : TagKind → Bool
  | .emphasis | .strong | .strikethrough | .link | .image => true
  | _ => false

/-- Entering what is no container is work inside of one. -/
theorem fills_enter {tag : Tag} (hblock : isBlockContainer tag.kind = false)
    (hinline : isInlineContainer tag.kind = false) (h : b.enter tag range = some b') :
    Fills True b b' := by
  cases tag with
  | paragraph => exact fills_enterParagraph h
  | heading _ | codeBlock _ | htmlBlock => exact fills_beginLeaf h
  | other =>
    cases h
    exact .refl b
  | blockQuote | list _ | item => cases hblock
  | emphasis | strong | strikethrough | link _ _ _ | image _ _ _ => cases hinline

/-- While containers are counted, leaving one is counted back; else it is left by its own rule. -/
theorem leave_of_skipped {kind : TagKind} (hkind : isBlockContainer kind)
    (hskipped : 0 < b.skippedContainers) (range : ByteRange) :
    b.leave kind range = some { b with skippedContainers := b.skippedContainers - 1 } := by
  unfold leave
  rw [hkind, Bool.true_and, if_pos (decide_eq_true hskipped)]

/-- Leaving what is no container is work inside of one. -/
theorem fills_leave {kind : TagKind} (hblock : isBlockContainer kind = false)
    (hinline : isInlineContainer kind = false) (h : b.leave kind range = some b') :
    Fills True b b' := by
  cases kind with
  | paragraph => exact fills_closeParagraph h
  | heading => exact fills_closeHeading h
  | codeBlock => exact fills_closeCode h
  | htmlBlock => exact fills_closeHtml h
  | other =>
    cases h
    exact .refl b
  | blockQuote | list | item => cases hblock
  | emphasis | strong | strikethrough | link | image => cases hinline

/-- The kind of frame that is opened for the tag of an inline container. -/
def frameKind? (source : List Char) (range : ByteRange) : Tag → Option FrameKind
  | .emphasis =>
    (dropBytes source range.start).map fun rest => .emphasis (rest.head?.getD '*') 1
  | .strong => (dropBytes source range.start).map fun rest => .emphasis (rest.head?.getD '*') 2
  | .strikethrough =>
    (dropBytes source range.start).map fun rest =>
      .strikethrough (rest.takeWhile (· == '~')).length
  | .link type url title => some (.link type url title false)
  | .image type url title => some (.link type url title true)
  | _ => none

/-- Entering an inline container enters a frame, the kind of which the source tells. -/
theorem enter_inline {tag : Tag} (htag : isInlineContainer tag.kind) (b : Builder)
    (range : ByteRange) :
    b.enter tag range =
      (frameKind? b.source range tag).bind fun kind => b.enterFrame kind range := by
  cases tag with
  | emphasis | strong | strikethrough =>
    simp only [enter, frameKind?]
    cases dropBytes b.source range.start <;> rfl
  | link _ _ _ | image _ _ _ => rfl
  | _ => cases htag

/-- An inline container is opened in the leaf or counted; it is only opened if none are counted. -/
theorem enter_inlineContainer {tag : Tag} (htag : isInlineContainer tag.kind)
    (h : b.enter tag range = some b') :
    ∃ b₁, Fills True b b₁ ∧
      (b₁.skippedFrames = 0 ∧ b' = b₁ ∨
        b' = { b₁ with skippedFrames := b₁.skippedFrames + 1 }) := by
  rw [enter_inline htag] at h
  obtain ⟨kind, -, h⟩ := Option.bind_eq_some_iff.1 h
  simp only [enterFrame, Option.bind_eq_bind, Option.bind_eq_some_iff] at h
  obtain ⟨b₁, hleaf, h⟩ := h
  split at h
  · cases h
    exact ⟨b₁, fills_ensureLeaf hleaf, .inr rfl⟩
  next hopens =>
    cases h
    rw [Bool.or_eq_true, not_or, decide_eq_true_eq, Nat.not_lt, Nat.le_zero] at hopens
    exact ⟨_, .trans (fills_ensureLeaf hleaf) (fills_mapLeaf _), .inl ⟨hopens.1, rfl⟩⟩

/-- Leaving an inline container leaves the innermost frame, whatever the range. -/
theorem leave_inlineContainer {kind : TagKind} (hkind : isInlineContainer kind)
    (b : Builder) (range : ByteRange) : b.leave kind range = some b.leaveFrame := by
  cases kind with
  | emphasis | strong | strikethrough | link | image => rfl
  | _ => cases hkind

theorem leaveFrame_of_skipped (hskipped : 0 < b.skippedFrames) :
    b.leaveFrame = { b with skippedFrames := b.skippedFrames - 1 } :=
  if_pos hskipped

theorem leaveFrame_of_opened (hskipped : b.skippedFrames = 0) :
    b.leaveFrame = b.mapLeaf (·.closeFrame) :=
  if_neg (by omega)

/-! ### The skeleton of the open containers -/

/-- The kinds of the open containers and the numbers of containers that are counted. -/
def skeleton (b : Builder) : List ContainerKind × Nat × Nat :=
  (b.containers.map (·.kind.bare), b.skippedContainers, b.skippedFrames)

theorem skippedContainers_congr (h : b'.skeleton = b.skeleton) :
    b'.skippedContainers = b.skippedContainers :=
  congrArg (fun s => s.2.1) h

theorem skippedFrames_congr (h : b'.skeleton = b.skeleton) : b'.skippedFrames = b.skippedFrames :=
  congrArg (fun s => s.2.2) h

theorem length_containers_congr (h : b'.skeleton = b.skeleton) :
    b'.containers.length = b.containers.length := by
  simpa [skeleton] using congrArg (fun s => s.1.length) h

@[simp] theorem skeleton_pushBlock (block : Block) :
    (b.pushBlock block).skeleton = b.skeleton := by
  unfold pushBlock
  split
  · rfl
  next hcons => simp [skeleton, hcons]

@[simp] theorem skeleton_markLoose : b.markLoose.skeleton = b.skeleton := by
  unfold markLoose
  split
  next hcons => simp [skeleton, hcons, ContainerKind.bare]
  · rfl

theorem skeleton_flushDefinitions {limit : Option Nat} (h : b.flushDefinitions limit = some b') :
    b'.skeleton = b.skeleton := by
  simp only [flushDefinitions, Option.bind_eq_bind, Option.bind_eq_some_iff,
    Option.some.injEq] at h
  obtain ⟨⟨definitions, ranges, cursor⟩, -, rfl⟩ := h
  split
  · rfl
  · exact skeleton_pushBlock _

/-- Work inside of a container keeps the skeleton. -/
theorem Fills.skeleton (h : Fills p b b') : b'.skeleton = b.skeleton := by
  induction h with
  | move b leaf cursor => rfl
  | pushBlock b hblock => exact skeleton_pushBlock _
  | markLoose b => exact skeleton_markLoose
  | flushDefinitions _ hflush => exact skeleton_flushDefinitions hflush
  | trans _ _ ih ih' => exact ih'.trans ih

/-- While none are counted, a container is left by its own rule. -/
theorem opened_of_none_skipped (h : b.skippedContainers = 0) (kind : TagKind) :
    ¬(isBlockContainer kind && decide (0 < b.skippedContainers)) = true := by
  simp [h]

/-- Leaving a container that was opened takes it off the open ones. -/
theorem skeleton_leave {kind : TagKind} (hkind : isBlockContainer kind)
    (hskipped : b.skippedContainers = 0) (h : b.leave kind range = some b') :
    b'.skeleton = (b.skeleton.1.tail, b.skeleton.2) := by
  unfold leave at h
  rw [if_neg (opened_of_none_skipped hskipped kind)] at h
  cases kind with
  | blockQuote =>
    simp only [leaveQuote, Option.bind_eq_bind, Option.bind_eq_some_iff] at h
    obtain ⟨b₁, hclose, b₂, hflush, last, -, trailing, -, h⟩ := h
    rw [← (fills_closeImplicit (p := True) hclose).skeleton, ← skeleton_flushDefinitions hflush]
    split at h
    next hnil =>
      cases h
      simp [skeleton, hnil]
    next c rest hcons =>
      split at h
      · simp only [Option.bind_eq_some_iff, Option.some.injEq] at h
        obtain ⟨lineStart, -, text, -, rfl⟩ := h
        refine Eq.trans (skeleton_pushBlock _) ?_
        simp [skeleton, hcons]
      · cases h
        simp [skeleton, hcons]
  | item =>
    simp only [leaveItem, Option.bind_eq_bind, Option.bind_eq_some_iff] at h
    obtain ⟨b₁, hclose, b₂, hflush, h⟩ := h
    rw [← (fills_closeImplicit (p := True) hclose).skeleton, ← skeleton_flushDefinitions hflush]
    split at h
    next hnil =>
      cases h
      simp [skeleton, hnil]
    next hcons =>
      cases h
      simp [skeleton, hcons, ContainerKind.bare]
    next hcons =>
      cases h
      simp [skeleton, hcons]
  | list =>
    cases h
    unfold leaveList
    split
    next hnil => simp [skeleton, hnil]
    next hcons =>
      refine Eq.trans (skeleton_pushBlock _) ?_
      simp [skeleton, hcons]
    next hcons => simp [skeleton, hcons]
  | _ => cases hkind

/-- Entering and leaving a container leaves the skeleton as it was, if what is between does so. -/
theorem skeleton_enclose {tag : Tag} {range' : ByteRange} {b₁ b₂ : Builder}
    (henter : b.enter tag range = some b₁) (hskeleton : b₂.skeleton = b₁.skeleton)
    (hleave : b₂.leave tag.kind range' = some b') : b'.skeleton = b.skeleton := by
  have skipped : b₂.skippedContainers = b₁.skippedContainers :=
    skippedContainers_congr hskeleton
  have frames : b₂.skippedFrames = b₁.skippedFrames := skippedFrames_congr hskeleton
  by_cases hblock : isBlockContainer tag.kind
  · rcases enter_container hblock henter with ⟨-, rfl⟩ | ⟨hopens, b₀, kind, lines, hfills, -, rfl⟩
    · -- What was counted is counted back.
      rw [leave_of_skipped hblock (by rw [skipped]; exact Nat.succ_pos _)] at hleave
      cases hleave
      show (b₂.skeleton.1, b₂.skippedContainers - 1, b₂.skippedFrames) = _
      rw [hskeleton, skipped, frames]
      rfl
    · have hopened₂ : b₂.skippedContainers = 0 :=
        skipped.trans ((skippedContainers_congr hfills.skeleton).trans
          (none_skipped_of_opens hopens))
      rw [skeleton_leave hblock hopened₂ hleave, hskeleton, ← hfills.skeleton]
      rfl
  by_cases hinline : isInlineContainer tag.kind
  · rw [leave_inlineContainer hinline] at hleave
    cases hleave
    obtain ⟨b₀, hfills, ⟨hzero, rfl⟩ | rfl⟩ := enter_inlineContainer hinline henter
    · rw [leaveFrame_of_opened (frames.trans hzero)]
      exact hskeleton.trans hfills.skeleton
    · rw [leaveFrame_of_skipped (by rw [frames]; exact Nat.succ_pos _)]
      show (b₂.skeleton.1, b₂.skippedContainers, b₂.skippedFrames - 1) = _
      rw [hskeleton, skipped, frames, ← hfills.skeleton]
      rfl
  · rw [Bool.not_eq_true] at hblock hinline
    exact (fills_leave hblock hinline hleave).skeleton.trans
      (hskeleton.trans (fills_enter hblock hinline henter).skeleton)

/-- **Balanced events keep the skeleton.** What they enter, opened or only counted, they leave. -/
theorem skeleton_run (forest : EventForest) (h : b.run forest.events = some b') :
    b'.skeleton = b.skeleton := by
  induction forest generalizing b b' with
  | nil =>
    cases h
    rfl
  | event e henter hleave rest ih =>
    obtain ⟨b₁, hstep, hrest⟩ := EventForest.exists_of_run_event h
    exact (ih hrest).trans (fills_step henter hleave hstep).skeleton
  | enclose tag range range' inner rest ih ih' =>
    obtain ⟨b₁, b₂, b₃, henter, hinner, hleave, hrest⟩ := EventForest.exists_of_run_enclose h
    exact (ih' hrest).trans (skeleton_enclose henter (ih hinner) hleave)

end Builder

end MarkdownSpans
