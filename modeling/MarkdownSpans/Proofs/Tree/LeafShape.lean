import MarkdownSpans.Proofs.Tree.LeafCap
import MarkdownSpans.Proofs.Tree.OpenLeaf
import MarkdownSpans.Proofs.Tree.Reading
import MarkdownSpans.Proofs.Tree.Placed
import MarkdownSpans.Proofs.Tree.Pruning

/-!
# Where the open leaf lies

While a builder runs over balanced events, where the events stand tells what leaf is open and how
many inline containers are open in it (`Builder.Lies.run`). All this is about a leaf is told by its
shape, so it is the shape that each operation is followed with.
-/

namespace MarkdownSpans

/-! ### Shapes of leaves -/

/-- How leaves treat inlines. -/
inductive LeafSort where
  /-- A paragraph that inlines of an item stand in. -/
  | implicit
  /-- A paragraph or heading that is entered. -/
  | prose
  /-- A block of code or markup. -/
  | verbatim
  deriving DecidableEq

/-- The sort of a kind of leaf. -/
def LeafKind.sort : LeafKind → LeafSort
  | paragraph true => .implicit
  | paragraph false | heading _ => .prose
  | code _ _ | html _ => .verbatim

/-- The extent of a leaf and the number of inline containers that are open in it. -/
structure LeafShape where
  sort : LeafSort
  start : Nat
  stop : Nat
  frames : Nat

/-- The shape extended to a position. -/
def LeafShape.reach (stop : Nat) (s : LeafShape) : LeafShape := { s with stop := max s.stop stop }

namespace Leaf

/-- The shape of a leaf. -/
def shape (leaf : Leaf) : LeafShape := ⟨leaf.kind.sort, leaf.start, leaf.stop, leaf.frames.length⟩

@[simp] theorem shape_push (inline : Inline) (leaf : Leaf) :
    (leaf.push inline).shape = leaf.shape := by
  have frames := length_frames_push inline leaf
  unfold shape
  rw [frames]
  unfold push
  split <;> rfl

theorem shape_pushAll (inlines : List Inline) (leaf : Leaf) :
    (leaf.pushAll inlines).shape = leaf.shape := by
  induction inlines generalizing leaf with
  | nil => rfl
  | cons inline rest ih => exact (ih (leaf.push inline)).trans (shape_push inline leaf)

theorem shape_closeFrame (leaf : Leaf) :
    leaf.closeFrame.shape = { leaf.shape with frames := leaf.frames.length - 1 } := by
  unfold closeFrame
  split
  next hnil => simp [shape, hnil]
  next frame rest hcons =>
    refine (shape_pushAll _ _).trans ?_
    simp [shape, hcons]

end Leaf

namespace Builder

/-- The shape of the open leaf. -/
def shape (b : Builder) : Option LeafShape := b.leaf.map Leaf.shape

variable {b b' : Builder} {range : ByteRange}

/-! ### Blocks -/

/-- A leaf is left, unless inlines of an item stand in it. -/
def keptShape (shape : Option LeafShape) : Option LeafShape :=
  shape.bind fun s => if s.sort = .implicit then none else some s

theorem keptShape_map (leaf? : Option Leaf) :
    keptShape (leaf?.map Leaf.shape) = (keptLeaf leaf?).map Leaf.shape := by
  have sort (kind : LeafKind) : kind.sort = .implicit ↔ kind = .paragraph true := by
    cases kind with
    | paragraph implicit => cases implicit <;> simp [LeafKind.sort]
    | _ => simp [LeafKind.sort]
  cases leaf? with
  | none => rfl
  | some leaf =>
    by_cases himplicit : leaf.kind = .paragraph true
    · simp [keptShape, keptLeaf, Leaf.shape, himplicit, LeafKind.sort]
    · simp [keptShape, keptLeaf, Leaf.shape, himplicit, sort]

/-- What is kept of the leaf is kept of its shape. -/
theorem shape_of_keptLeaf (h : b'.leaf = keptLeaf b.leaf) : b'.shape = keptShape b.shape := by
  rw [shape, h, shape, keptShape_map]

theorem shape_closeImplicit (h : b.closeImplicit = some b') : b'.shape = keptShape b.shape :=
  shape_of_keptLeaf (leaf_closeImplicit h)

theorem shape_beginBlock {start : Nat} {lines : Option (List Line)}
    (h : b.beginBlock start = some (lines, b')) : b'.shape = keptShape b.shape :=
  shape_of_keptLeaf (leaf_beginBlock h)

theorem shape_beginLeaf {kind : LeafKind} {start : Nat} (h : b.beginLeaf kind start = some b') :
    b'.shape = some ⟨kind.sort, start, start, 0⟩ := by
  obtain ⟨linesBefore, hleaf⟩ := leaf_beginLeaf h
  rw [shape, hleaf]
  rfl

theorem shape_enterParagraph (h : b.enterParagraph range = some b') :
    b'.shape = some ⟨.prose, range.start, range.start, 0⟩ := by
  have entered : b.enter .paragraph range = some b' := h
  obtain ⟨linesBefore, hleaf⟩ := leaf_enter rfl entered
  rw [shape, hleaf]
  rfl

/-! ### Inlines -/

/-- The shape of the leaf that an inline is added to. -/
def extendedShape (range : ByteRange) (shape : Option LeafShape) : Option LeafShape :=
  some ((shape.getD ⟨.implicit, range.start, range.start, 0⟩).reach range.stop)

theorem shape_ensureLeaf (h : b.ensureLeaf range = some b') :
    b'.shape = extendedShape range b.shape := by
  obtain ⟨linesBefore, hleaf⟩ := leaf_ensureLeaf h
  rw [shape, hleaf, shape]
  cases b.leaf <;> rfl

theorem shape_mapLeaf {f : Leaf → Leaf} (hf : ∀ leaf, (f leaf).shape = leaf.shape) (b : Builder) :
    (b.mapLeaf f).shape = b.shape := by
  cases hleaf : b.leaf with
  | none => simp [shape, mapLeaf, hleaf]
  | some leaf => simp [shape, mapLeaf, hleaf, hf]

theorem shape_addInline {inline : Inline} (h : b.addInline inline range = some b') :
    b'.shape = extendedShape range b.shape := by
  simp only [addInline, Option.bind_eq_bind, Option.bind_eq_some_iff, Option.some.injEq] at h
  obtain ⟨b₁, hleaf, rfl⟩ := h
  rw [← shape_ensureLeaf hleaf]
  exact shape_mapLeaf (fun leaf => Leaf.shape_push inline leaf) b₁

/-- Text of a block of code or markup keeps its shape. -/
theorem shape_mapKind {leaf : Leaf} (hleaf : b.leaf = some leaf) {kind : LeafKind}
    (hkind : kind.sort = leaf.kind.sort) :
    (b.mapLeaf fun leaf => { leaf with kind }).shape = b.shape := by
  simp [shape, mapLeaf, hleaf, Leaf.shape, hkind]

theorem shape_addText {content : String} (h : b.addText content range = some b') :
    b'.shape = b.shape ∨ b'.shape = extendedShape range b.shape := by
  unfold addText at h
  split at h
  next hleaf =>
    obtain rfl := Option.some.inj h
    exact .inl (shape_mapKind hleaf rfl)
  next hleaf =>
    obtain rfl := Option.some.inj h
    exact .inl (shape_mapKind hleaf rfl)
  · simp only [Option.bind_eq_bind, Option.bind_eq_some_iff] at h
    obtain ⟨raw, -, before, -, hadd⟩ := h
    exact .inr (shape_addInline hadd)

theorem shape_addHtml {content : String} (h : b.addHtml content range = some b') :
    b'.shape = b.shape ∨ b'.shape = extendedShape range b.shape := by
  unfold addHtml at h
  split at h
  next hleaf =>
    obtain rfl := Option.some.inj h
    exact .inl (shape_mapKind hleaf rfl)
  · exact .inr (shape_addInline h)

theorem shape_addBreak {hard : Bool} (h : b.addBreak hard range = some b') :
    b'.shape = extendedShape range b.shape := by
  simp only [addBreak, Option.bind_eq_bind, Option.bind_eq_some_iff] at h
  obtain ⟨raw, -, hadd⟩ := h
  exact shape_addInline hadd

/-- An event that enters and leaves no container. -/
theorem shape_step {e : RangedEvent} (henter : ∀ tag, e.event ≠ .enter tag)
    (hleave : ∀ kind, e.event ≠ .leave kind) (h : b.step e = some b') :
    b'.shape = b.shape ∧ e.event ≠ .rule ∨ b'.shape = keptShape b.shape ∧ e.event = .rule ∨
      b'.shape = extendedShape e.range b.shape ∧ e.event.isInline = true := by
  obtain ⟨event, range⟩ := e
  cases event with
  | enter tag => exact absurd rfl (henter tag)
  | leave kind => exact absurd rfl (hleave kind)
  | text content =>
    exact (shape_addText h).imp (fun h => ⟨h, nofun⟩) fun h => .inr ⟨h, rfl⟩
  | code content => exact .inr (.inr ⟨shape_addInline h, rfl⟩)
  | html content =>
    exact (shape_addHtml h).imp (fun h => ⟨h, nofun⟩) fun h => .inr ⟨h, rfl⟩
  | inlineHtml content => exact .inr (.inr ⟨shape_addInline h, rfl⟩)
  | softBreak => exact .inr (.inr ⟨shape_addBreak h, rfl⟩)
  | hardBreak => exact .inr (.inr ⟨shape_addBreak h, rfl⟩)
  | rule => exact .inr (.inl ⟨shape_of_keptLeaf (leaf_addRule h), rfl⟩)
  | other =>
    cases h
    exact .inl ⟨rfl, nofun⟩

/-! ### Containers -/

/-- The leaf when a block container that was opened is left. -/
theorem shape_leave_container {kind : TagKind} (hkind : isBlockContainer kind)
    (hskipped : b.skippedContainers = 0) (h : b.leave kind range = some b') :
    b'.shape = if kind = .list then b.shape else keptShape b.shape := by
  rw [shape, leaf_leave_container hkind hskipped h, shape, keptShape_map]
  split <;> rfl

/-! ### Inline containers -/

/-- Whether one more inline container is counted and not opened. -/
def framesFull (b : Builder) : Bool :=
  0 < b.skippedFrames || b.leaf.any (b.options.maxDepth ≤ ·.frames.length)

/-- A frame that is entered is counted or opened. -/
def pushFrame (kind : FrameKind) (b : Builder) : Builder :=
  if b.framesFull then { b with skippedFrames := b.skippedFrames + 1 }
  else b.mapLeaf (·.openFrame kind)

theorem enterFrame_eq (kind : FrameKind) (range : ByteRange) (b : Builder) :
    b.enterFrame kind range = (b.ensureLeaf range).map (pushFrame kind) := by
  unfold enterFrame pushFrame framesFull
  cases b.ensureLeaf range with
  | none => rfl
  | some b₁ =>
    show (if _ then _ else _) = some (if _ then _ else _)
    split <;> rfl

/-- Entering an inline container pushes a frame to the leaf there is for it. -/
theorem exists_pushFrame_of_enter {tag : Tag} (htag : isInlineContainer tag.kind)
    (h : b.enter tag range = some b') :
    ∃ kind b₁, frameKind? b.source range tag = some kind ∧ b.ensureLeaf range = some b₁ ∧
      b' = b₁.pushFrame kind := by
  rw [enter_inline htag] at h
  obtain ⟨kind, hkind, h⟩ := Option.bind_eq_some_iff.1 h
  rw [enterFrame_eq] at h
  obtain ⟨b₁, hensure, rfl⟩ := Option.map_eq_some_iff.1 h
  exact ⟨kind, b₁, hkind, hensure, rfl⟩

theorem skippedFrames_of_framesFull (h : b.framesFull = false) : b.skippedFrames = 0 := by
  unfold framesFull at h
  rw [Bool.or_eq_false_iff, decide_eq_false_iff_not] at h
  omega

theorem skippedFrames_pushFrame (h : b.framesFull = false) (kind : FrameKind) :
    (b.pushFrame kind).skippedFrames = b.skippedFrames := by
  unfold pushFrame
  rw [h]
  rfl

theorem containers_pushFrame (kind : FrameKind) (b : Builder) :
    (b.pushFrame kind).containers = b.containers := by
  unfold pushFrame
  split <;> rfl

theorem skippedContainers_pushFrame (kind : FrameKind) (b : Builder) :
    (b.pushFrame kind).skippedContainers = b.skippedContainers := by
  unfold pushFrame
  split <;> rfl

theorem framesFull_iff {s : LeafShape} (hshape : b.shape = some s) :
    b.framesFull = true ↔ 0 < b.skippedFrames ∨ b.options.maxDepth ≤ s.frames := by
  obtain ⟨leaf, hleaf, rfl⟩ := Option.map_eq_some_iff.1 hshape
  simp [framesFull, hleaf, Leaf.shape]

theorem shape_pushFrame {s : LeafShape} (hshape : b.shape = some s) (kind : FrameKind) :
    if 0 < b.skippedFrames ∨ b.options.maxDepth ≤ s.frames then
      (b.pushFrame kind).shape = some s ∧ (b.pushFrame kind).skippedFrames = b.skippedFrames + 1
    else (b.pushFrame kind).shape = some { s with frames := s.frames + 1 } ∧
      (b.pushFrame kind).skippedFrames = b.skippedFrames := by
  have full := framesFull_iff hshape
  obtain ⟨leaf, hleaf, rfl⟩ := Option.map_eq_some_iff.1 hshape
  split
  next hcounted =>
    rw [pushFrame, if_pos (full.2 hcounted)]
    exact ⟨hshape, rfl⟩
  next hopened =>
    rw [pushFrame, if_neg (mt full.1 hopened)]
    exact ⟨by simp [shape, mapLeaf, hleaf, Leaf.shape, Leaf.openFrame], rfl⟩

/-! ### The containers around -/

/-- The number of block containers around the next block, while none are counted. -/
def keptDepth (b : Builder) : Option Nat := if b.skippedContainers = 0 then some b.depth else none

theorem keptDepth_congr (h : b'.skeleton = b.skeleton) : b'.keptDepth = b.keptDepth := by
  rw [keptDepth, keptDepth, skippedContainers_congr h, depth, depth, length_containers_congr h]

theorem containers_ne_nil (hskeleton : b'.skeleton = b.skeleton) (h : b.containers ≠ []) :
    b'.containers ≠ [] := by
  intro hnil
  have kinds : b.containers.map (·.kind.bare) = b'.containers.map (·.kind.bare) :=
    congrArg Prod.fst hskeleton.symm
  rw [hnil] at kinds
  exact h (List.map_eq_nil_iff.1 kinds)

/-- A block container is kept if it is opened. -/
theorem keeps_container {kind : TagKind} (hkind : isBlockContainer kind) (prose : Option Nat)
    (b : Builder) :
    EventForest.keeps b.options.maxDepth b.keptDepth prose kind = b.opens kind := by
  have fits (levels : Nat) :
      b.fits levels = b.keptDepth.any (· + levels ≤ b.options.maxDepth) := by
    unfold fits keptDepth
    by_cases hskipped : b.skippedContainers = 0 <;> simp [hskipped]
  cases kind with
  | blockQuote | list => exact (fits _).symm
  | item =>
    unfold EventForest.keeps keptDepth opens
    by_cases hskipped : b.skippedContainers = 0 <;> simp [hskipped]
  | _ => cases hkind

/-- The content of a block container has one more around it if the container is kept. -/
theorem keptDepth_enter {tag : Tag} (htag : isBlockContainer tag.kind) (hne : b.containers ≠ [])
    (henter : b.enter tag range = some b') (prose : Option Nat) :
    b'.keptDepth = EventForest.depthWithin b.options.maxDepth b.keptDepth prose tag.kind := by
  rw [EventForest.depthWithin, if_pos htag, keeps_container htag]
  rcases enter_container htag henter with ⟨hopens, rfl⟩ | ⟨hopens, b₁, kind, lines, hfills, -, rfl⟩
  · rw [hopens, if_neg Bool.false_ne_true]
    exact if_neg (Nat.succ_ne_zero _)
  · have hskipped := none_skipped_of_opens hopens
    have skipped : b₁.skippedContainers = 0 :=
      (skippedContainers_congr hfills.skeleton).trans hskipped
    have length := length_containers_congr hfills.skeleton
    have := List.length_pos_of_ne_nil hne
    have outer : b.keptDepth = some b.depth := if_pos hskipped
    rw [hopens, if_pos rfl, outer]
    refine (if_pos skipped).trans (congrArg some ?_)
    show b₁.containers.length + 1 - 1 = b.containers.length - 1 + 1
    omega

theorem skippedFrames_enter_container {tag : Tag} (htag : isBlockContainer tag.kind)
    (henter : b.enter tag range = some b') : b'.skippedFrames = b.skippedFrames := by
  rcases enter_container htag henter with ⟨-, rfl⟩ | ⟨-, b₁, kind, lines, hfills, -, rfl⟩
  · rfl
  · show b₁.skippedFrames = b.skippedFrames
    exact skippedFrames_congr hfills.skeleton

theorem containers_ne_nil_enter {tag : Tag} (htag : isBlockContainer tag.kind)
    (hne : b.containers ≠ []) (henter : b.enter tag range = some b') : b'.containers ≠ [] := by
  rcases enter_container htag henter with ⟨-, rfl⟩ | ⟨-, b₁, kind, lines, -, -, rfl⟩
  · exact hne
  · exact List.cons_ne_nil _ _

theorem keptDepth_enter_inline {tag : Tag} (htag : isInlineContainer tag.kind)
    (henter : b.enter tag range = some b') : b'.keptDepth = b.keptDepth := by
  obtain ⟨kind, b₁, -, hensure, rfl⟩ := exists_pushFrame_of_enter htag henter
  rw [← keptDepth_congr (fills_ensureLeaf hensure).skeleton, keptDepth, keptDepth,
    skippedContainers_pushFrame, depth, depth, containers_pushFrame]

theorem containers_ne_nil_enter_inline {tag : Tag} (htag : isInlineContainer tag.kind)
    (hne : b.containers ≠ []) (henter : b.enter tag range = some b') : b'.containers ≠ [] := by
  obtain ⟨kind, b₁, -, hensure, rfl⟩ := exists_pushFrame_of_enter htag henter
  rw [containers_pushFrame]
  exact containers_ne_nil (fills_ensureLeaf hensure).skeleton hne

/-- A container that was counted is counted back when it is left. -/
theorem skipped_of_enter {tag : Tag} {b₁ b₂ : Builder} (htag : isBlockContainer tag.kind)
    (henter : b.enter tag range = some b₁) (hskeleton : b₂.skeleton = b₁.skeleton) :
    if b.opens tag.kind then b₂.skippedContainers = 0 else 0 < b₂.skippedContainers := by
  rw [skippedContainers_congr hskeleton]
  rcases enter_container htag henter with ⟨hopens, rfl⟩ | ⟨hopens, b₀, kind, lines, hfills, -, rfl⟩
  · rw [hopens]
    exact Nat.succ_pos _
  · rw [if_pos hopens]
    exact (skippedContainers_congr hfills.skeleton).trans (none_skipped_of_opens hopens)

end Builder

/-! ### Where leaves lie -/

/-- What the place of events tells of the open leaf and of the number of inline containers that are
counted: outside of leaf blocks none are, in a paragraph or heading those beyond the limit. A leaf
that is entered reaches no further than its events do. -/
def Place.Admits (limit : Nat) (reach : Option Nat) (shape : Option LeafShape) (skipped : Nat) :
    Place → Prop
  | outside n => (∀ s ∈ shape, s.sort = .implicit ∧ s.frames ≤ n) ∧ skipped = 0
  | prose n =>
    (∃ s ∈ shape, s.sort = .prose ∧ s.frames = min n limit ∧
      ∀ r ∈ reach, s.stop ≤ max r s.start) ∧ skipped = n - limit
  | verbatim => ∃ s ∈ shape, s.sort = .verbatim

namespace Place.Admits

variable {limit skipped : Nat} {reach : Option Nat} {place : Place} {shape : Option LeafShape}

/-- Only outside of leaf blocks there is a leaf to close. -/
theorem kept (h : place.Admits limit reach shape skipped) :
    place.closed.Admits limit reach (Builder.keptShape shape) skipped := by
  have same {s : LeafShape} (hs : s ∈ shape) (hsort : s.sort ≠ .implicit) :
      Builder.keptShape shape = shape := by
    obtain rfl := Option.mem_def.1 hs
    exact if_neg hsort
  cases place with
  | outside n =>
    refine ⟨fun s hs => ?_, h.2⟩
    obtain ⟨s', hs', hkept⟩ := Option.bind_eq_some_iff.1 hs
    rw [if_pos (h.1 s' hs').1] at hkept
    cases hkept
  | prose n =>
    obtain ⟨⟨s, hs, hsort, hs'⟩, hskipped⟩ := h
    rw [same hs (by simp [hsort])]
    exact ⟨⟨s, hs, hsort, hs'⟩, hskipped⟩
  | verbatim =>
    obtain ⟨s, hs, hsort⟩ := h
    rw [same hs (by simp [hsort])]
    exact ⟨s, hs, hsort⟩

/-- An inline opens a leaf outside of leaf blocks and extends the open one. -/
theorem extended {range : ByteRange} (h : place.Admits limit reach shape skipped)
    (hrange : ∀ r ∈ reach, range.stop ≤ r) :
    place.Admits limit reach (Builder.extendedShape range shape) skipped := by
  cases place with
  | outside n =>
    refine ⟨?_, h.2⟩
    rintro s hs
    obtain rfl := Option.some.inj hs
    cases shape with
    | none => exact ⟨rfl, Nat.zero_le n⟩
    | some s => exact h.1 s rfl
  | prose n =>
    obtain ⟨⟨s, rfl, hsort, hframes, hstop⟩, hskipped⟩ := h
    refine ⟨⟨s.reach range.stop, rfl, hsort, hframes, fun r hr => ?_⟩, hskipped⟩
    have := hstop r hr
    have := hrange r hr
    show max s.stop range.stop ≤ max r s.start
    omega
  | verbatim =>
    obtain ⟨s, rfl, hsort⟩ := h
    exact ⟨s.reach range.stop, rfl, hsort⟩

/-- One more inline container is counted if there is no room, else it is opened. -/
theorem deeper {s : LeafShape} {shape' : Option LeafShape} {skipped' : Nat}
    (h : place.Admits limit reach (some s) skipped) (hroom : ∀ n, place = .outside n → n < limit)
    (hframe : if 0 < skipped ∨ limit ≤ s.frames then shape' = some s ∧ skipped' = skipped + 1
      else shape' = some { s with frames := s.frames + 1 } ∧ skipped' = skipped) :
    place.deeper.Admits limit reach shape' skipped' := by
  cases place with
  | outside n =>
    obtain ⟨hs, rfl⟩ := h
    obtain ⟨hsort, hframes⟩ := hs s rfl
    have room := hroom n rfl
    rw [if_neg (by omega)] at hframe
    obtain ⟨rfl, rfl⟩ := hframe
    refine ⟨?_, rfl⟩
    rintro s' hs'
    obtain rfl := Option.some.inj hs'
    exact ⟨hsort, Nat.succ_le_succ hframes⟩
  | prose n =>
    obtain ⟨⟨s, hs, hsort, hframes, hstop⟩, rfl⟩ := h
    obtain rfl := Option.some.inj hs
    split at hframe
    next hcounted =>
      obtain ⟨rfl, rfl⟩ := hframe
      exact ⟨⟨s, rfl, hsort, by omega, hstop⟩, by omega⟩
    next hopened =>
      obtain ⟨rfl, rfl⟩ := hframe
      refine ⟨⟨_, rfl, hsort, ?_, hstop⟩, by omega⟩
      show s.frames + 1 = min (n + 1) limit
      omega
  | verbatim =>
    obtain ⟨s, hs, hsort⟩ := h
    obtain rfl := Option.some.inj hs
    split at hframe
    · exact ⟨s, hframe.1, hsort⟩
    · exact ⟨_, hframe.1, hsort⟩

/-- One inline container is counted back if any are counted, else the innermost one is left. -/
theorem shallower {shape' : Option LeafShape} {skipped' : Nat}
    (h : place.Admits limit reach shape skipped)
    (hframe : if 0 < skipped then shape' = shape ∧ skipped' = skipped - 1
      else shape' = shape.map (fun s => { s with frames := s.frames - 1 }) ∧ skipped' = skipped) :
    place.shallower.Admits limit reach shape' skipped' := by
  cases place with
  | outside n =>
    obtain ⟨hs, rfl⟩ := h
    obtain ⟨rfl, rfl⟩ := hframe
    refine ⟨?_, rfl⟩
    rintro s' hs'
    obtain ⟨s, hmem, rfl⟩ := Option.map_eq_some_iff.1 hs'
    obtain ⟨hsort, hframes⟩ := hs s hmem
    exact ⟨hsort, Nat.sub_le_sub_right hframes 1⟩
  | prose n =>
    obtain ⟨⟨s, rfl, hsort, hframes, hstop⟩, rfl⟩ := h
    split at hframe
    next hcounted =>
      obtain ⟨rfl, rfl⟩ := hframe
      exact ⟨⟨s, rfl, hsort, by omega, hstop⟩, by omega⟩
    next hopened =>
      obtain ⟨rfl, rfl⟩ := hframe
      refine ⟨⟨_, rfl, hsort, ?_, hstop⟩, by omega⟩
      show s.frames - 1 = min (n - 1) limit
      omega
  | verbatim =>
    obtain ⟨s, rfl, hsort⟩ := h
    split at hframe
    · exact ⟨s, hframe.1, hsort⟩
    · exact ⟨_, hframe.1, hsort⟩

end Place.Admits

namespace Builder

/-- The open leaf is as the place of events tells. -/
def Lies (limit : Nat) (reach : Option Nat) (place : Place) (b : Builder) : Prop :=
  place.Admits limit reach b.shape b.skippedFrames

namespace Lies

variable {limit : Nat} {reach : Option Nat} {place : Place} {b b' : Builder} {range : ByteRange}

theorem congr (h : b.Lies limit reach place) (hshape : b'.shape = b.shape)
    (hskipped : b'.skippedFrames = b.skippedFrames) : b'.Lies limit reach place := by
  unfold Lies
  rw [hshape, hskipped]
  exact h

theorem closed (h : b.Lies limit reach place) (hshape : b'.shape = keptShape b.shape)
    (hskipped : b'.skippedFrames = b.skippedFrames) : b'.Lies limit reach place.closed := by
  unfold Lies
  rw [hshape, hskipped]
  exact h.kept

theorem of_leaf_none {n : Nat} (hleaf : b.leaf = none) (hskipped : b.skippedFrames = 0) :
    b.Lies limit reach (.outside n) := by
  refine ⟨?_, hskipped⟩
  simp [shape, hleaf]

theorem step {e : RangedEvent} (h : b.Lies limit reach place)
    (henter : ∀ tag, e.event ≠ .enter tag) (hleave : ∀ kind, e.event ≠ .leave kind)
    (hrange : ∀ r ∈ reach, e.event.isInline = true → e.range.stop ≤ r)
    (hstep : b.step e = some b') : b'.Lies limit reach (place.behind e.event) := by
  have skipped : b'.skippedFrames = b.skippedFrames :=
    skippedFrames_congr (fills_step henter hleave hstep).skeleton
  rcases shape_step henter hleave hstep with ⟨hshape, hrule⟩ | ⟨hshape, hrule⟩ | ⟨hshape, hinline⟩
  · rw [Place.behind_of_ne hrule]
    exact h.congr hshape skipped
  · rw [hrule]
    exact h.closed hshape skipped
  · have hrule : e.event ≠ .rule := by
      rintro hrule
      rw [hrule] at hinline
      cases hinline
    rw [Place.behind_of_ne hrule]
    unfold Lies
    rw [hshape, skipped]
    exact h.extended fun r hr => hrange r hr hinline

/-! ### Containers -/

theorem enter_container {tag : Tag} (h : b.Lies limit reach place)
    (htag : isBlockContainer tag.kind) (henter : b.enter tag range = some b') :
    b'.Lies limit reach (place.enter (b.opens tag.kind) tag.kind) := by
  rw [Place.enter_container htag]
  rcases Builder.enter_container htag henter with ⟨hopens, rfl⟩ | ⟨hopens, -⟩
  · rw [hopens]
    exact h
  · rw [hopens, if_pos rfl]
    have shape := shape_of_keptLeaf (leaf_enter_container hopens henter)
    exact h.closed shape (skippedFrames_enter_container htag henter)

/-- A block container that was opened. -/
theorem leave_container {kind : TagKind} (h : b.Lies limit reach place)
    (hkind : isBlockContainer kind) (hskipped : b.skippedContainers = 0)
    (hleave : b.leave kind range = some b') : b'.Lies limit reach (place.leave true kind) := by
  have shape := shape_leave_container hkind hskipped hleave
  have skipped : b'.skippedFrames = b.skippedFrames :=
    congrArg (fun s => s.2.2) (skeleton_leave hkind hskipped hleave)
  cases kind with
  | blockQuote | item => exact h.closed shape skipped
  | list => exact h.congr shape skipped
  | _ => cases hkind

/-! ### Inline containers -/

theorem ensureLeaf (h : b.Lies limit reach place) (hrange : ∀ r ∈ reach, range.stop ≤ r)
    (hensure : b.ensureLeaf range = some b') : b'.Lies limit reach place := by
  have skipped : b'.skippedFrames = b.skippedFrames :=
    skippedFrames_congr (fills_ensureLeaf hensure).skeleton
  unfold Lies
  rw [shape_ensureLeaf hensure, skipped]
  exact h.extended hrange

theorem pushFrame {s : LeafShape} (h : b.Lies b.options.maxDepth reach place)
    (hshape : b.shape = some s) (hroom : ∀ n, place = .outside n → n < b.options.maxDepth)
    (kind : FrameKind) : (b.pushFrame kind).Lies b.options.maxDepth reach place.deeper := by
  have admits : place.Admits b.options.maxDepth reach (some s) b.skippedFrames := hshape ▸ h
  exact admits.deeper hroom (shape_pushFrame hshape kind)

theorem enter_inline {tag : Tag} (h : b.Lies b.options.maxDepth reach place)
    (htag : isInlineContainer tag.kind) (hroom : ∀ n, place = .outside n → n < b.options.maxDepth)
    (hrange : ∀ r ∈ reach, range.stop ≤ r) (henter : b.enter tag range = some b') :
    b'.Lies b.options.maxDepth reach place.deeper := by
  obtain ⟨kind, b₁, -, hensure, rfl⟩ := exists_pushFrame_of_enter htag henter
  have options : b₁.options = b.options := congrArg Prod.snd (reading_ensureLeaf hensure)
  have h₁ := h.ensureLeaf hrange hensure
  rw [← options] at h₁ hroom ⊢
  exact h₁.pushFrame (shape_ensureLeaf hensure) hroom kind

theorem leaveFrame (h : b.Lies limit reach place) :
    b.leaveFrame.Lies limit reach place.shallower := by
  refine h.shallower ?_
  split
  next hskipped =>
    rw [leaveFrame_of_skipped hskipped]
    exact ⟨rfl, rfl⟩
  next hskipped =>
    rw [leaveFrame_of_opened (by omega)]
    refine ⟨?_, rfl⟩
    cases hleaf : b.leaf with
    | none => simp [shape, mapLeaf, hleaf]
    | some leaf =>
      simp only [shape, mapLeaf, hleaf, Option.map_some, Leaf.shape_closeFrame]
      rfl

/-- The place of events tells whether one more inline container is opened. -/
theorem framesFull {s : LeafShape} (h : b.Lies b.options.maxDepth reach place)
    (hshape : b.shape = some s) (hplace : place ≠ .verbatim)
    (hroom : ∀ n, place = .outside n → n < b.options.maxDepth) :
    b.framesFull = !place.prose?.all (· < b.options.maxDepth) := by
  rw [Bool.eq_iff_iff, framesFull_iff hshape]
  cases place with
  | outside n =>
    obtain ⟨hframes, hzero⟩ := h
    have := (hframes s hshape).2
    have := hroom n rfl
    simp only [Place.prose?, Option.all_none, Bool.not_true, Bool.false_eq_true, iff_false]
    omega
  | prose n =>
    obtain ⟨⟨s', hs', -, hframes, -⟩, hskipped⟩ := h
    obtain rfl : s' = s := Option.some.inj (hs'.symm.trans hshape)
    simp only [Place.prose?, Option.all_some, Bool.not_eq_true', decide_eq_false_iff_not]
    omega
  | verbatim => exact absurd rfl hplace

/-- Outside of blocks of code and markup, no more inline containers are open than stand around. -/
theorem frames_le {s : LeafShape} (h : b.Lies limit reach place) (hshape : b.shape = some s)
    (hplace : place ≠ .verbatim) : s.sort ≠ .verbatim ∧ s.frames ≤ place.frames := by
  cases place with
  | outside n =>
    obtain ⟨hsort, hframes⟩ := h.1 s hshape
    exact ⟨by simp [hsort], hframes⟩
  | prose n =>
    obtain ⟨⟨s', hs', hsort, hframes, -⟩, -⟩ := h
    obtain rfl : s' = s := Option.some.inj (hs'.symm.trans hshape)
    refine ⟨by simp [hsort], ?_⟩
    show s'.frames ≤ n
    omega
  | verbatim => exact absurd rfl hplace

/-! ### Leaf blocks -/

/-- The position that the inlines of a leaf block do not reach beyond. -/
def reachOf (range' : ByteRange) : TagKind → Option Nat
  | .paragraph => some range'.stop
  | _ => none

theorem enter_leafBlock {tag : Tag} {n : Nat} (h : b.Lies limit reach (.outside n))
    (htag : tag.kind.isLeafBlock) (range' : ByteRange) (kept : Bool)
    (henter : b.enter tag range = some b') :
    b'.Lies limit (reachOf range' tag.kind) (place.enter kept tag.kind) := by
  have hblock := TagKind.isBlockContainer_of_isLeafBlock htag
  have hinline := TagKind.isInlineContainer_of_isLeafBlock htag
  have skipped : b'.skippedFrames = 0 :=
    (skippedFrames_congr (fills_enter hblock hinline henter).skeleton).trans h.2
  -- The leaf that is opened is empty.
  have empty {s : LeafShape} (hs : b'.shape = some s) (hsort : s.sort = .prose)
      (hframes : s.frames = 0) (hstop : s.stop = s.start) (reach : Option Nat) :
      b'.Lies limit reach (.prose 0) :=
    ⟨⟨s, hs, hsort, by omega, fun r _ => by omega⟩, by omega⟩
  cases tag with
  | paragraph => exact empty (shape_enterParagraph henter) rfl rfl rfl _
  | heading level => exact empty (shape_beginLeaf henter) rfl rfl rfl _
  | codeBlock info => exact ⟨_, shape_beginLeaf henter, rfl⟩
  | htmlBlock => exact ⟨_, shape_beginLeaf henter, rfl⟩
  | _ => cases htag

/-! ### Runs -/

/-- Balanced events keep the leaf where it lies. -/
theorem run (forest : EventForest) (h : b.Lies b.options.maxDepth reach place)
    (hopen : b.containers ≠ []) (hfoldable : forest.Foldable b.options.maxDepth b.keptDepth place)
    (hreach : ∀ r ∈ reach, ∀ e ∈ forest.events, e.event.isInline = true → e.range.stop ≤ r)
    (hrun : b.run forest.events = some b') :
    b'.Lies b'.options.maxDepth reach (forest.past b.options.maxDepth b.keptDepth place) := by
  induction forest generalizing b b' reach place with
  | nil =>
    cases hrun
    exact h
  | event e henter hleave rest ih =>
    obtain ⟨b₁, hstep, hrest⟩ := EventForest.exists_of_run_event hrun
    have options₁ : b₁.options = b.options := congrArg Prod.snd (reading_step hstep)
    have skeleton₁ := (fills_step henter hleave hstep).skeleton
    have h₁ := h.step henter hleave (fun r hr => hreach r hr e (.head _)) hstep
    rw [EventForest.Foldable, ← keptDepth_congr skeleton₁] at hfoldable
    rw [EventForest.past, ← keptDepth_congr skeleton₁]
    rw [← options₁] at h₁ hfoldable ⊢
    exact ih h₁ (containers_ne_nil skeleton₁ hopen) hfoldable
      (fun r hr e he => hreach r hr e (.tail _ he)) hrest
  | enclose tag range range' inner rest ih ih' =>
    obtain ⟨b₁, b₂, b₃, henter, hinner, hleave, hrest⟩ := EventForest.exists_of_run_enclose hrun
    have skeleton₂ := skeleton_run inner hinner
    have skeleton₃ := skeleton_enclose henter skeleton₂ hleave
    have options₁ : b₁.options = b.options := congrArg Prod.snd (reading_enter henter)
    have options₂ : b₂.options = b₁.options := congrArg Prod.snd (reading_run hinner)
    have options₃ : b₃.options = b₂.options := congrArg Prod.snd (reading_leave hleave)
    obtain ⟨hleaf, hroom, -, hinnerFoldable, hrestFoldable⟩ := hfoldable
    simp only [EventForest.events, List.mem_cons, List.mem_append] at hreach
    have innerReach (r : Nat) (hr : r ∈ reach) (e : RangedEvent) (he : e ∈ inner.events) :
        e.event.isInline = true → e.range.stop ≤ r := hreach r hr e (.inr (.inl he))
    -- What is left of the run is behind the container.
    suffices h₃ : b₃.Lies b₃.options.maxDepth reach
        ((EventForest.enclose tag range range' inner .nil).past b.options.maxDepth b.keptDepth
          place) by
      have options : b₃.options = b.options := by rw [options₃, options₂, options₁]
      have depth₃ := keptDepth_congr skeleton₃
      rw [← depth₃, ← options] at hrestFoldable h₃
      have hall := ih' h₃ (containers_ne_nil skeleton₃ hopen) hrestFoldable
        (fun r hr e he => hreach r hr e (.inr (.inr (.inr he)))) hrest
      rw [depth₃, options] at hall
      exact hall
    rw [options₃]
    rcases tag.classes with hblock | hinline | hleafBlock | rfl
    · have h₁ := h.enter_container hblock henter
      have depth₁ := keptDepth_enter hblock hopen henter place.prose?
      rw [keeps_container hblock, ← depth₁, ← options₁] at hinnerFoldable
      rw [← options₁] at h₁
      have opened₁ := containers_ne_nil_enter hblock hopen henter
      have h₂ := ih h₁ opened₁ hinnerFoldable innerReach hinner
      rw [EventForest.past, EventForest.past, keeps_container hblock, ← depth₁, ← options₁]
      have hskipped := skipped_of_enter hblock henter skeleton₂
      cases hopens : b.opens tag.kind with
      | false =>
        rw [hopens] at hskipped h₂
        rw [leave_of_skipped hblock hskipped] at hleave
        cases hleave
        rw [Place.leave_container_false hblock]
        exact h₂
      | true =>
        rw [hopens] at hskipped h₂
        exact h₂.leave_container hblock hskipped hleave
    · have h₁ := h.enter_inline hinline (hroom hinline)
        (fun r hr => hreach r hr _ (.inl rfl) hinline) henter
      have depth₁ := keptDepth_enter_inline hinline henter
      have opened₁ := containers_ne_nil_enter_inline hinline hopen henter
      rw [EventForest.depthWithin_inline hinline, Place.enter_inline hinline, ← depth₁,
        ← options₁] at hinnerFoldable
      rw [← options₁] at h₁
      have h₂ := ih h₁ opened₁ hinnerFoldable innerReach hinner
      rw [EventForest.past, EventForest.past, EventForest.depthWithin_inline hinline,
        Place.enter_inline hinline, Place.leave_inline hinline, ← depth₁, ← options₁]
      rw [leave_inlineContainer hinline] at hleave
      cases hleave
      exact h₂.leaveFrame
    · obtain ⟨n, rfl⟩ := hleaf hleafBlock
      rw [EventForest.past, EventForest.past, Place.leave_leafBlock hleafBlock]
      exact of_leaf_none (leaf_leave hleafBlock hleave)
        ((skippedFrames_congr skeleton₃).trans h.2)
    · cases henter
      cases hleave
      exact ih h hopen hinnerFoldable innerReach hinner

end Lies

end Builder

end MarkdownSpans
