import MarkdownSpans.Proofs.Tree.DepthCap
import MarkdownSpans.Proofs.Tree.LeafShape

/-!
# The frames of a leaf on one stack

The inlines of a leaf may be kept on one stack of frames, innermost first: a frame for each open
inline container and below them one for the leaf itself, the root. What events do to such a stack is
told by its innermost frames, and by the builder that is fed the events. A stack that is taken along
a builder shows the frames of the leaf whenever one is open (`StackBuilder.Shows.run`), whether or
not the events are balanced. So its root stays at the bottom, and no more frames stand above it than
the limit.
-/

namespace MarkdownSpans

/-! ### Stacks of frames -/

/-- A frame of an inline container, or the root of a leaf if it is of no kind. -/
structure StackFrame where
  kind : Option FrameKind
  /-- Its inlines so far, the latest first. -/
  reversed : List Inline := []

namespace StackFrame

/-- Whether a frame is of the leaf itself. -/
def isRoot (frame : StackFrame) : Bool := frame.kind.isNone

/-- Add inlines to a frame one after another. -/
def pushAll (inlines : List Inline) (frame : StackFrame) : StackFrame :=
  { frame with reversed := pushInlines inlines frame.reversed }

/-- What a frame becomes when it is left. -/
def close (frame : StackFrame) : List Inline :=
  match frame.kind with
  | none => frame.reversed.reverse
  | some kind => kind.close frame.reversed.reverse

end StackFrame

/-- The frames of a leaf, innermost first. -/
abbrev FrameStack := List StackFrame

namespace FrameStack

/-- The frames of a leaf that is empty. -/
def opened : FrameStack := [{ kind := none }]

/-- Add inlines to the innermost frame. -/
def pushAll (inlines : List Inline) : FrameStack → FrameStack
  | [] => []
  | frame :: rest => frame.pushAll inlines :: rest

/-- Enter an inline container. -/
def enter (kind : FrameKind) (stack : FrameStack) : FrameStack := { kind := some kind } :: stack

/-- Leave the innermost frame for the one around it. The last frame is not left. -/
def leave : FrameStack → FrameStack
  | frame :: outer :: rest => outer.pushAll frame.close :: rest
  | stack => stack

/-- The inlines of a frame in some others when each of them is left. -/
def fold : StackFrame → FrameStack → List Inline
  | frame, [] => frame.reversed.reverse
  | frame, outer :: rest => fold (outer.pushAll frame.close) rest

/-- The inlines of all the frames. -/
def take : FrameStack → List Inline
  | [] => []
  | frame :: rest => fold frame rest

/-- There is a root at the bottom and nowhere else, with at most so many frames above it. -/
def Rooted (limit : Nat) (stack : FrameStack) : Prop :=
  ∃ (frames : List StackFrame) (root : StackFrame), stack = frames ++ [root] ∧
    root.isRoot = true ∧ (∀ frame ∈ frames, frame.isRoot = false) ∧ frames.length ≤ limit

variable (stack : FrameStack)

@[simp] theorem pushAll_nil : stack.pushAll [] = stack := by
  cases stack <;> rfl

theorem leave_cons {stack : FrameStack} (h : stack ≠ []) (frame : StackFrame) :
    leave (frame :: stack) = stack.pushAll frame.close := by
  cases stack with
  | nil => exact absurd rfl h
  | cons outer rest => rfl

/-- Frames that are left one by one have the inlines of them all. -/
theorem take_leave : stack.leave.take = stack.take := by
  unfold leave
  split <;> rfl

/-- Whatever is left, the last frame stays; at most it takes inlines of the one above it. -/
theorem exists_getLast?_leave :
    ∃ added, stack.leave.getLast? = stack.getLast?.map (·.pushAll added) := by
  have same (stack : FrameStack) :
      ∃ added, stack.getLast? = stack.getLast?.map (·.pushAll added) :=
    ⟨[], Option.map_id'.symm⟩
  unfold leave
  split
  next frame outer rest =>
    cases rest with
    | nil => exact ⟨frame.close, rfl⟩
    | cons root rest => exact same (frame :: outer :: root :: rest)
  · exact same stack

end FrameStack

namespace Leaf

variable (leaf : Leaf)

/-- The frames of a leaf on one stack. -/
def stack : FrameStack :=
  leaf.frames.map (fun frame => ⟨some frame.kind, frame.reversed⟩) ++ [⟨none, leaf.root⟩]

@[simp] theorem length_stack : leaf.stack.length = leaf.frames.length + 1 := by
  simp [stack]

@[simp] theorem stack_reach (stop : Nat) : (leaf.reach stop).stack = leaf.stack := rfl

@[simp] theorem stack_openFrame (kind : FrameKind) :
    (leaf.openFrame kind).stack = leaf.stack.enter kind := rfl

@[simp] theorem stack_pushAll (is : List Inline) :
    (leaf.pushAll is).stack = leaf.stack.pushAll is := by
  cases h : leaf.frames with
  | nil =>
    rw [pushAll_root is h, stack, stack, h]
    rfl
  | cons frame rest =>
    rw [pushAll_frame is h, stack, stack, h]
    rfl

theorem stack_cons {frame : Frame} {rest : List Frame} (h : leaf.frames = frame :: rest) :
    leaf.stack =
      ⟨some frame.kind, frame.reversed⟩ :: ({ leaf with frames := rest } : Leaf).stack := by
  rw [stack, h]
  rfl

theorem stack_ne_nil : leaf.stack ≠ [] :=
  List.append_ne_nil_of_right_ne_nil _ (List.cons_ne_nil _ [])

@[simp] theorem stack_closeFrame : leaf.closeFrame.stack = leaf.stack.leave := by
  unfold closeFrame
  split
  next hnil =>
    rw [stack, hnil]
    rfl
  next frame rest hcons =>
    rw [stack_cons leaf hcons, FrameStack.leave_cons (stack_ne_nil _)]
    exact stack_pushAll _ _

/-- The inlines of a leaf are those of its frames. -/
theorem take_stack : leaf.stack.take = leaf.inlines := by
  have folded (frames : List Frame) (leaf : Leaf) (added : List Inline)
      (hframes : leaf.frames = frames) :
      (leaf.stack.pushAll added).take = foldFrames leaf.root added frames := by
    induction frames generalizing leaf added with
    | nil =>
      rw [stack, hframes]
      rfl
    | cons frame rest ih =>
      rw [foldFrames, ← ih { leaf with frames := rest } _ rfl, stack_cons leaf hframes,
        FrameStack.pushAll, ← FrameStack.take_leave, FrameStack.leave_cons (stack_ne_nil _)]
      rfl
  have all := folded leaf.frames leaf [] rfl
  rwa [FrameStack.pushAll_nil] at all

/-- A leaf that fits the limit has no more frames than the limit allows. -/
theorem Capped.rooted {d : Nat} {leaf : Leaf} (h : leaf.Capped d) : leaf.stack.Rooted d := by
  have bound : leaf.frames.length ≤ d := by
    cases hframes : leaf.frames with
    | nil => exact Nat.zero_le d
    | cons frame rest =>
      have capped := h.frames
      rw [hframes] at capped
      exact capped.1
  refine ⟨_, _, rfl, rfl, ?_, ?_⟩
  · intro frame hframe
    obtain ⟨before, -, rfl⟩ := List.mem_map.1 hframe
    rfl
  · rw [List.length_map]
    exact bound

end Leaf

/-! ### What events do -/

/-- Whether a leaf of a kind takes the text of an event for its own. -/
def LeafKind.takesText : Event → LeafKind → Bool
  | .text _, code _ _ | .text _, html _ | .html _, html _ => true
  | _, _ => false

/-- Whether leaving a leaf block ends a leaf of a kind, and does not just drop it. -/
def LeafKind.endedBy : TagKind → LeafKind → Bool
  | .paragraph, _ | .heading, heading _ | .codeBlock, code _ _ | .htmlBlock, html _ => true
  | _, _ => false

namespace Builder

/-- The inline that an event adds to a leaf. -/
def inline? (e : RangedEvent) (b : Builder) : Option Inline :=
  if b.leaf.any (·.kind.takesText e.event) then none
  else
    match e.event with
    | .text content => do
      let raw ← sliceChars b.source e.range.start e.range.stop
      let before ← takeBytes b.source e.range.start
      some (textInline b.options content raw before)
    | .code content => some (.codeSpan content)
    | .html content | .inlineHtml content => some (.htmlInline content)
    | .softBreak => do
      let raw ← sliceChars b.source e.range.start e.range.stop
      some (.lineBreak (breakNewline raw) false)
    | .hardBreak => do
      let raw ← sliceChars b.source e.range.start e.range.stop
      some (.lineBreak (breakNewline raw) true)
    | _ => none

/-- The frames there are for an inline: those of the open leaf, or those of an empty one. -/
def stackForInline (b : Builder) (stack : FrameStack) : FrameStack :=
  if b.leaf.isNone then .opened else stack

/-- The frames after the inline of an event is added. -/
def stackWithInline (e : RangedEvent) (b : Builder) (stack : FrameStack) : FrameStack :=
  match b.inline? e with
  | none => stack
  | some inline => (b.stackForInline stack).pushAll [inline]

/-- The frames when a block begins or ends: a leaf that inlines of an item stand in gives them
up. -/
def stackAtBlock (b : Builder) (stack : FrameStack) : FrameStack :=
  if b.leaf.any (·.kind = .paragraph true) then [] else stack

/-- The frames after an inline container is entered, unless it is nested too deep. The root does not
count. -/
def stackInFrame (kind : FrameKind) (b : Builder) (stack : FrameStack) : FrameStack :=
  let stack := b.stackForInline stack
  if 0 < b.skippedFrames || b.options.maxDepth < stack.length then stack else stack.enter kind

/-- The frames after a container is entered. -/
def stackEntered (tag : Tag) (range : ByteRange) (b : Builder) (stack : FrameStack) : FrameStack :=
  match tag with
  | .paragraph | .heading _ | .codeBlock _ | .htmlBlock => .opened
  | .blockQuote | .list _ | .item => if b.opens tag.kind then b.stackAtBlock stack else stack
  | .emphasis | .strong | .strikethrough | .link _ _ _ | .image _ _ _ =>
    (frameKind? b.source range tag).elim stack fun kind => b.stackInFrame kind stack
  | .other => stack

/-- The frames after a container is left. A leaf that is dropped does not give them up. -/
def stackLeft (kind : TagKind) (b : Builder) (stack : FrameStack) : FrameStack :=
  if isBlockContainer kind && 0 < b.skippedContainers then stack
  else
    match kind with
    | .paragraph | .heading | .codeBlock | .htmlBlock =>
      if b.leaf.any (·.kind.endedBy kind) then [] else stack
    | .blockQuote | .item => b.stackAtBlock stack
    | .emphasis | .strong | .strikethrough | .link | .image =>
      if 0 < b.skippedFrames then stack else stack.leave
    | .list | .other => stack

/-- The frames after an event. -/
def stackAfter (e : RangedEvent) (b : Builder) (stack : FrameStack) : FrameStack :=
  match e.event with
  | .enter tag => b.stackEntered tag e.range stack
  | .leave kind => b.stackLeft kind stack
  | .rule => b.stackAtBlock stack
  | _ => b.stackWithInline e stack

/-- A leaf that is kept keeps its frames. -/
theorem stackAtBlock_of_kept {b : Builder} {leaf : Leaf} (h : leaf ∈ keptLeaf b.leaf)
    (stack : FrameStack) : b.stackAtBlock stack = stack := by
  obtain ⟨hopen, hkind⟩ := mem_keptLeaf.1 h
  have kept : ¬b.leaf.any (·.kind = .paragraph true) = true := by
    rw [Option.mem_def.1 hopen]
    simpa using hkind
  rw [stackAtBlock, if_neg kept]

/-- A stack shows the frames of the leaf, if one is open. -/
def Shows (stack : FrameStack) (b : Builder) : Prop := ∀ leaf ∈ b.leaf, stack = leaf.stack

namespace Shows

variable {stack : FrameStack} {b b' : Builder} {range : ByteRange}

theorem congr (h : b.Shows stack) (hleaf : b'.leaf = b.leaf) : b'.Shows stack := by
  intro leaf hmem
  rw [hleaf] at hmem
  exact h leaf hmem

theorem of_leaf_none (h : b.leaf = none) (stack : FrameStack) : b.Shows stack := by
  intro leaf hleaf
  rw [h] at hleaf
  cases hleaf

theorem mapLeaf {f : Leaf → Leaf} {g : FrameStack → FrameStack} (h : b.Shows stack)
    (hf : ∀ leaf, (f leaf).stack = g leaf.stack) : (b.mapLeaf f).Shows (g stack) := by
  intro leaf hleaf
  obtain ⟨before, hbefore, rfl⟩ := Option.map_eq_some_iff.1 hleaf
  rw [h before hbefore, hf]

theorem atBlock (h : b.Shows stack) (hleaf : b'.leaf = keptLeaf b.leaf) :
    b'.Shows (b.stackAtBlock stack) := by
  intro leaf hmem
  rw [hleaf] at hmem
  rw [stackAtBlock_of_kept hmem]
  exact h leaf (mem_keptLeaf.1 hmem).1

/-- Inlines have a leaf, the frames of which are shown. -/
theorem ensureLeaf (h : b.Shows stack) (hb : b.ensureLeaf range = some b') :
    ∃ leaf, b'.leaf = some leaf ∧ leaf.stack = b.stackForInline stack := by
  obtain ⟨linesBefore, hleaf⟩ := leaf_ensureLeaf hb
  refine ⟨_, hleaf, ?_⟩
  rw [Leaf.stack_reach, stackForInline]
  cases hopen : b.leaf with
  | none => rfl
  | some leaf => exact (h leaf hopen).symm

theorem addInline {inline : Inline} (h : b.Shows stack) (hb : b.addInline inline range = some b') :
    b'.Shows ((b.stackForInline stack).pushAll [inline]) := by
  simp only [Builder.addInline, Option.bind_eq_bind, Option.bind_eq_some_iff,
    Option.some.injEq] at hb
  obtain ⟨b₁, hensure, rfl⟩ := hb
  obtain ⟨leaf, hleaf, hstack⟩ := h.ensureLeaf hensure
  rw [← hstack]
  have shown : b₁.Shows leaf.stack := by
    intro leaf' hleaf'
    rw [hleaf] at hleaf'
    cases hleaf'
    rfl
  exact shown.mapLeaf fun leaf => Leaf.stack_pushAll leaf [inline]

theorem enterFrame {kind : FrameKind} (h : b.Shows stack)
    (hb : b.enterFrame kind range = some b') : b'.Shows (b.stackInFrame kind stack) := by
  rw [enterFrame_eq] at hb
  obtain ⟨b₁, hensure, rfl⟩ := Option.map_eq_some_iff.1 hb
  obtain ⟨leaf, hleaf, hstack⟩ := h.ensureLeaf hensure
  have skipped : b₁.skippedFrames = b.skippedFrames :=
    skippedFrames_congr (fills_ensureLeaf hensure).skeleton
  have options : b₁.options = b.options := congrArg Prod.snd (reading_ensureLeaf hensure)
  -- The root makes the frames one more than the open inline containers.
  have full : b₁.framesFull =
      (0 < b.skippedFrames || b.options.maxDepth < (b.stackForInline stack).length) := by
    rw [framesFull, skipped, options, hleaf, ← hstack, Leaf.length_stack]
    simp only [Option.any_some, Nat.lt_add_one_iff]
  intro leaf' hleaf'
  rw [stackInFrame, ← full, ← hstack]
  unfold pushFrame at hleaf'
  split at hleaf'
  next hfull =>
    rw [if_pos hfull]
    obtain rfl := Option.some.inj (hleaf.symm.trans hleaf')
    rfl
  next hfull =>
    rw [if_neg hfull]
    rw [Builder.mapLeaf, hleaf] at hleaf'
    cases hleaf'
    exact (leaf.stack_openFrame kind).symm

/-- A leaf that takes the text of an event for its own keeps its frames. -/
theorem ofText {e : RangedEvent} {leaf : Leaf} (h : b.Shows stack) (hleaf : b.leaf = some leaf)
    (htakes : leaf.kind.takesText e.event = true) (f : Leaf → LeafKind) :
    (b.mapLeaf fun leaf => { leaf with kind := f leaf }).Shows (b.stackWithInline e stack) := by
  have none : b.inline? e = none := by
    rw [inline?, hleaf]
    exact if_pos htakes
  rw [stackWithInline, none]
  exact h.mapLeaf (g := id) fun _ => rfl

/-- An event that adds an inline. -/
theorem ofInline {e : RangedEvent} {inline : Inline} (h : b.Shows stack)
    (hinline : b.inline? e = some inline) (hb : b.addInline inline range = some b') :
    b'.Shows (b.stackWithInline e stack) := by
  rw [stackWithInline, hinline]
  exact h.addInline hb

theorem addText {content : String} (h : b.Shows stack) (hb : b.addText content range = some b') :
    b'.Shows (b.stackAfter ⟨.text content, range⟩ stack) := by
  unfold Builder.addText at hb
  split at hb
  next hleaf =>
    cases hb
    exact h.ofText hleaf rfl _
  next hleaf =>
    cases hb
    exact h.ofText hleaf rfl _
  next hcode hhtml =>
    simp only [Option.bind_eq_bind, Option.bind_eq_some_iff] at hb
    obtain ⟨raw, hraw, before, hbefore, hb⟩ := hb
    have free : b.leaf.any (·.kind.takesText (.text content)) = false := by
      cases hopen : b.leaf with
      | none => rfl
      | some leaf =>
        obtain ⟨kind, start, stop, lines, root, frames⟩ := leaf
        cases kind with
        | paragraph | heading => rfl
        | code text info => exact absurd hopen (hcode text info start stop lines root frames)
        | html text => exact absurd hopen (hhtml text start stop lines root frames)
    refine h.ofInline ?_ hb
    simp [inline?, free, hraw, hbefore]

theorem addHtml {content : String} (h : b.Shows stack) (hb : b.addHtml content range = some b') :
    b'.Shows (b.stackAfter ⟨.html content, range⟩ stack) := by
  unfold Builder.addHtml at hb
  split at hb
  next hleaf =>
    cases hb
    exact h.ofText hleaf rfl _
  next hhtml =>
    have free : b.leaf.any (·.kind.takesText (.html content)) = false := by
      cases hopen : b.leaf with
      | none => rfl
      | some leaf =>
        obtain ⟨kind, start, stop, lines, root, frames⟩ := leaf
        cases kind with
        | paragraph | heading | code => rfl
        | html text => exact absurd hopen (hhtml text start stop lines root frames)
    refine h.ofInline ?_ hb
    simp [inline?, free]

theorem addBreak {hard : Bool} (h : b.Shows stack) (hb : b.addBreak hard range = some b') :
    b'.Shows (b.stackAfter ⟨if hard then .hardBreak else .softBreak, range⟩ stack) := by
  simp only [Builder.addBreak, Option.bind_eq_bind, Option.bind_eq_some_iff] at hb
  obtain ⟨raw, hraw, hb⟩ := hb
  cases hard with
  | true => exact h.ofInline (by simp [inline?, LeafKind.takesText, hraw]) hb
  | false => exact h.ofInline (by simp [inline?, LeafKind.takesText, hraw]) hb

/-! ### Containers -/

theorem enter {tag : Tag} (h : b.Shows stack) (hb : b.enter tag range = some b') :
    b'.Shows (b.stackEntered tag range stack) := by
  rcases tag.classes with hblock | hinline | hleafBlock | rfl
  · have entered : b.stackEntered tag range stack =
        if b.opens tag.kind then b.stackAtBlock stack else stack := by
      cases tag with
      | blockQuote | list | item => rfl
      | _ => cases hblock
    rw [entered]
    rcases enter_container hblock hb with ⟨hcounted, rfl⟩ | ⟨hopens, -⟩
    · rw [hcounted]
      exact h.congr rfl
    · rw [if_pos hopens]
      exact h.atBlock (leaf_enter_container hopens hb)
  · rw [enter_inline hinline] at hb
    obtain ⟨kind, hkind, hb⟩ := Option.bind_eq_some_iff.1 hb
    have entered : b.stackEntered tag range stack = b.stackInFrame kind stack := by
      cases tag with
      | emphasis | strong | strikethrough | link | image =>
        rw [stackEntered, hkind]
        rfl
      | _ => cases hinline
    rw [entered]
    exact h.enterFrame hb
  · have fresh (kind : LeafKind) (hkind : leafKind? tag = some kind) : b'.Shows .opened := by
      obtain ⟨linesBefore, hleaf⟩ := leaf_enter hkind hb
      intro leaf hmem
      obtain rfl := Option.some.inj (hleaf.symm.trans hmem)
      rfl
    cases tag with
    | paragraph | heading | codeBlock | htmlBlock => exact fresh _ rfl
    | _ => cases hleafBlock
  · cases hb
    exact h

theorem leaveFrame (h : b.Shows stack) :
    b.leaveFrame.Shows (if 0 < b.skippedFrames then stack else stack.leave) := by
  unfold Builder.leaveFrame
  split
  · exact h.congr rfl
  · exact h.mapLeaf Leaf.stack_closeFrame

theorem leave {kind : TagKind} (h : b.Shows stack) (hb : b.leave kind range = some b') :
    b'.Shows (b.stackLeft kind stack) := by
  by_cases hcounted : (isBlockContainer kind && 0 < b.skippedContainers) = true
  · unfold stackLeft
    unfold Builder.leave at hb
    rw [if_pos hcounted] at hb ⊢
    cases hb
    exact h.congr rfl
  · have left := hb
    unfold stackLeft
    unfold Builder.leave at hb
    rw [if_neg hcounted] at hb ⊢
    cases kind with
    | paragraph | heading | codeBlock | htmlBlock => exact of_leaf_none (leaf_leave rfl left) _
    | blockQuote | item =>
      have skipped : b.skippedContainers = 0 := by simpa [isBlockContainer] using hcounted
      exact h.atBlock (leaf_leave_container rfl skipped left)
    | list =>
      have skipped : b.skippedContainers = 0 := by simpa [isBlockContainer] using hcounted
      exact h.congr (leaf_leave_container rfl skipped left)
    | emphasis | strong | strikethrough | link | image =>
      cases hb
      exact h.leaveFrame
    | other =>
      cases hb
      exact h

/-- Every event, whether or not it matches those before, does the same to the stack. -/
theorem step {e : RangedEvent} (h : b.Shows stack) (hb : b.step e = some b') :
    b'.Shows (b.stackAfter e stack) := by
  obtain ⟨event, range⟩ := e
  cases event with
  | enter tag => exact h.enter hb
  | leave kind => exact h.leave hb
  | text content => exact h.addText hb
  | code content => exact h.ofInline (by simp [inline?, LeafKind.takesText]) hb
  | html content => exact h.addHtml hb
  | inlineHtml content => exact h.ofInline (by simp [inline?, LeafKind.takesText]) hb
  | softBreak => exact h.addBreak hb
  | hardBreak => exact h.addBreak hb
  | rule => exact h.atBlock (leaf_addRule hb)
  | other =>
    cases hb
    simpa [stackAfter, stackWithInline, inline?] using h

end Shows

/-- An event that leaves a container takes the root away only with the leaf: while the leaf stays
open, the root is where it was, with no less in it. -/
theorem exists_getLast?_stackLeft {b b' : Builder} {kind : TagKind} {range : ByteRange}
    (hb : b.leave kind range = some b') (hopen : b'.leaf.isSome) (stack : FrameStack) :
    ∃ added, (b.stackLeft kind stack).getLast? = stack.getLast?.map (·.pushAll added) := by
  have same : ∃ added, stack.getLast? = stack.getLast?.map (·.pushAll added) :=
    ⟨[], Option.map_id'.symm⟩
  obtain ⟨leaf, hleaf⟩ := Option.isSome_iff_exists.1 hopen
  unfold stackLeft
  by_cases hcounted : (isBlockContainer kind && 0 < b.skippedContainers) = true
  · rw [if_pos hcounted]
    exact same
  · rw [if_neg hcounted]
    cases kind with
    | paragraph | heading | codeBlock | htmlBlock =>
      rw [leaf_leave rfl hb] at hleaf
      cases hleaf
    | blockQuote | item =>
      have skipped : b.skippedContainers = 0 := by simpa [isBlockContainer] using hcounted
      rw [leaf_leave_container rfl skipped hb] at hleaf
      show ∃ added, (b.stackAtBlock stack).getLast? = _
      rw [stackAtBlock_of_kept hleaf]
      exact same
    | emphasis | strong | strikethrough | link | image =>
      show ∃ added, (if 0 < b.skippedFrames then stack else stack.leave).getLast? = _
      split
      · exact same
      · exact stack.exists_getLast?_leave
    | list | other => exact same

/-- Leaving an inline container leaves the leaf open. -/
theorem isSome_leaf_leaveFrame (b : Builder) : b.leaveFrame.leaf.isSome = b.leaf.isSome := by
  unfold leaveFrame
  split
  · rfl
  · exact Option.isSome_map

end Builder

/-! ### Runs -/

/-- A builder that the frames of its leaf are taken along with on one stack. -/
structure StackBuilder where
  builder : Builder
  stack : FrameStack

namespace StackBuilder

/-- The state before the first event. -/
def start (source : List Char) (definitions : List ByteRange) (options : BuildOptions) :
    StackBuilder where
  builder := .start source definitions options
  stack := []

/-- The state after an event. -/
def step (s : StackBuilder) (e : RangedEvent) : Option StackBuilder :=
  (s.builder.step e).map fun b => ⟨b, s.builder.stackAfter e s.stack⟩

/-- The state after a list of events. -/
def run (s : StackBuilder) (events : List RangedEvent) : Option StackBuilder :=
  events.foldlM step s

theorem run_cons (s : StackBuilder) (e : RangedEvent) (events : List RangedEvent) :
    s.run (e :: events) = (s.step e).bind (·.run events) := List.foldlM_cons

/-- The stack is only taken along: the builder does what it does without it. -/
theorem map_run (s : StackBuilder) (events : List RangedEvent) :
    (s.run events).map (·.builder) = s.builder.run events := by
  induction events generalizing s with
  | nil => rfl
  | cons e rest ih =>
    rw [run_cons, Builder.run_cons, step]
    cases s.builder.step e with
    | none => rfl
    | some b => exact ih ⟨b, s.builder.stackAfter e s.stack⟩

/-- The stack shows the frames of the leaf. -/
def Shows (s : StackBuilder) : Prop := s.builder.Shows s.stack

variable {s s' : StackBuilder}

theorem shows_start (source : List Char) (definitions : List ByteRange) (options : BuildOptions) :
    (start source definitions options).Shows := Builder.Shows.of_leaf_none rfl []

theorem Shows.step {e : RangedEvent} (h : s.Shows) (hs : s.step e = some s') : s'.Shows := by
  obtain ⟨b, hb, rfl⟩ := Option.map_eq_some_iff.1 hs
  exact Builder.Shows.step h hb

theorem Shows.run {events : List RangedEvent} (h : s.Shows) (hs : s.run events = some s') :
    s'.Shows := by
  induction events generalizing s with
  | nil =>
    cases hs
    exact h
  | cons e rest ih =>
    rw [run_cons, Option.bind_eq_some_iff] at hs
    obtain ⟨s₁, hstep, hrest⟩ := hs
    exact ih (h.step hstep) hrest

/-- While a leaf is open there is a root at the bottom of the stack, with no more frames above it
than the limit. -/
theorem rooted_of_run {source : List Char} {definitions : List ByteRange} {options : BuildOptions}
    {events : List RangedEvent} {leaf : Leaf}
    (hs : (start source definitions options).run events = some s)
    (hleaf : s.builder.leaf = some leaf) : s.stack.Rooted options.maxDepth := by
  have shown : s.Shows := (shows_start source definitions options).run hs
  have hrun : (Builder.start source definitions options).run events = some s.builder := by
    have mapped := map_run (start source definitions options) events
    rw [hs, Option.map_some] at mapped
    exact mapped.symm
  obtain ⟨k, hcapped⟩ := (Builder.capped_start source definitions options).run hrun
  rw [shown leaf hleaf]
  exact (hcapped.leaf leaf hleaf).rooted

/-- Of three inline containers two fit the limit, and of more ends than there are containers the last
does nothing. -/
example :
    let entered : List RangedEvent := List.replicate 3 ⟨.enter .emphasis, ⟨0, 1⟩⟩
    let left : List RangedEvent := List.replicate 4 ⟨.leave .emphasis, ⟨0, 1⟩⟩
    let b := start ['*'] [] ⟨{ maxDepth := 2 }, knownEmoji⟩
    (b.run entered).map (·.stack.map (·.isRoot)) = some [false, false, true] ∧
      (b.run (entered ++ left)).map (·.stack.map (·.isRoot)) = some [true] := by
  decide

end StackBuilder

end MarkdownSpans
