import MarkdownSpans.Proofs.Tree.LeafShape

/-!
# Blocks that are built inside of a container

A leaf block with nothing but inlines in it stays open until it is left (`Builder.StaysIn.run`), and
then its block stands in the innermost container; so do the blocks of quotes and lists that fit into
the limit on nesting. A balanced run takes no block away (`Builder.KeepsFilled.run`), so that a
block built directly in a container stands in it in the end (`Builder.Room.holds_run`).
-/

namespace MarkdownSpans

/-- Nothing in the forest begins or ends a block. -/
def EventForest.Blockless : EventForest → Prop
  | nil => True
  | event e _ _ rest => e.event ≠ .rule ∧ rest.Blockless
  | enclose tag _ _ inner rest =>
    Builder.isBlockContainer tag.kind = false ∧ tag.kind.isLeafBlock = false ∧
      inner.Blockless ∧ rest.Blockless

/-- The container becomes a block where some more levels of nesting fit. -/
def TagKind.BecomesBlock (levels : Nat) (inner : EventForest) : TagKind → Prop
  | blockQuote => 1 ≤ levels
  | list => 2 ≤ levels
  | kind => kind.isLeafBlock = true ∧ inner.Blockless

/-- Among the trees of the forest is that of a block, where some more levels of nesting fit. -/
def EventForest.HasBlock (levels : Nat) : EventForest → Prop
  | nil => False
  | event e _ _ rest => e.event = .rule ∨ rest.HasBlock levels
  | enclose tag _ _ inner rest => tag.kind.BecomesBlock levels inner ∨ rest.HasBlock levels

/-- The tags that leaves of a kind are opened for. -/
def LeafKind.tag : LeafKind → TagKind
  | paragraph _ => .paragraph
  | heading _ => .heading
  | code _ _ => .codeBlock
  | html _ => .htmlBlock

namespace Builder

variable {b b' b'' : Builder} {range : ByteRange}

/-! ### Inlines in the open leaf -/

/-- Work in the open leaf, which stays the same block. -/
def StaysIn (leaf : Leaf) (b b' : Builder) : Prop :=
  ∃ leaf' skipped, b' = { b with leaf := some leaf', skippedFrames := skipped } ∧
    leaf'.kind.tag = leaf.kind.tag ∧ leaf'.start = leaf.start

namespace StaysIn

variable {leaf : Leaf}

theorem refl (hleaf : b.leaf = some leaf) : StaysIn leaf b b :=
  ⟨leaf, b.skippedFrames, by rw [← hleaf], rfl, rfl⟩

theorem trans (h : StaysIn leaf b b')
    (h' : ∀ leaf', b'.leaf = some leaf' → StaysIn leaf' b' b'') : StaysIn leaf b b'' := by
  obtain ⟨leaf₁, skipped, rfl, htag, hstart⟩ := h
  obtain ⟨leaf₂, skipped', rfl, htag', hstart'⟩ := h' leaf₁ rfl
  exact ⟨leaf₂, skipped', rfl, htag'.trans htag, hstart'.trans hstart⟩

theorem mapLeaf (hleaf : b.leaf = some leaf) {f : Leaf → Leaf}
    (htag : (f leaf).kind.tag = leaf.kind.tag) (hstart : (f leaf).start = leaf.start) :
    StaysIn leaf b (b.mapLeaf f) :=
  ⟨f leaf, b.skippedFrames, by rw [Builder.mapLeaf, hleaf, Option.map_some], htag, hstart⟩

theorem ensureLeaf (hleaf : b.leaf = some leaf) (h : b.ensureLeaf range = some b') :
    StaysIn leaf b b' := by
  simp only [Builder.ensureLeaf, hleaf, Option.bind_eq_bind, Option.bind_some] at h
  cases h
  exact mapLeaf hleaf rfl rfl

theorem addInline {inline : Inline} (hleaf : b.leaf = some leaf)
    (h : b.addInline inline range = some b') : StaysIn leaf b b' := by
  simp only [Builder.addInline, Option.bind_eq_bind, Option.bind_eq_some_iff,
    Option.some.injEq] at h
  obtain ⟨b₁, hensure, rfl⟩ := h
  refine (ensureLeaf hleaf hensure).trans fun leaf₁ hleaf₁ => ?_
  obtain ⟨root, frames, hpush⟩ := leaf₁.exists_push inline
  exact mapLeaf hleaf₁ (by rw [hpush]) (by rw [hpush])

theorem addText {content : String} (hleaf : b.leaf = some leaf)
    (h : b.addText content range = some b') : StaysIn leaf b b' := by
  unfold Builder.addText at h
  split at h
  next hcode =>
    obtain rfl := Option.some.inj (hleaf.symm.trans hcode)
    cases h
    exact mapLeaf hleaf rfl rfl
  next hhtml =>
    obtain rfl := Option.some.inj (hleaf.symm.trans hhtml)
    cases h
    exact mapLeaf hleaf rfl rfl
  · simp only [Option.bind_eq_bind, Option.bind_eq_some_iff] at h
    obtain ⟨raw, -, before, -, hadd⟩ := h
    exact addInline hleaf hadd

theorem addHtml {content : String} (hleaf : b.leaf = some leaf)
    (h : b.addHtml content range = some b') : StaysIn leaf b b' := by
  unfold Builder.addHtml at h
  split at h
  next hhtml =>
    obtain rfl := Option.some.inj (hleaf.symm.trans hhtml)
    cases h
    exact mapLeaf hleaf rfl rfl
  · exact addInline hleaf h

theorem addBreak {hard : Bool} (hleaf : b.leaf = some leaf)
    (h : b.addBreak hard range = some b') : StaysIn leaf b b' := by
  simp only [Builder.addBreak, Option.bind_eq_bind, Option.bind_eq_some_iff] at h
  obtain ⟨raw, -, hadd⟩ := h
  exact addInline hleaf hadd

/-- An event in a leaf that is no block. -/
theorem step {e : RangedEvent} (hleaf : b.leaf = some leaf) (henter : ∀ tag, e.event ≠ .enter tag)
    (hleave : ∀ kind, e.event ≠ .leave kind) (hrule : e.event ≠ .rule)
    (h : b.step e = some b') : StaysIn leaf b b' := by
  unfold Builder.step at h
  split at h
  next tag htag => exact absurd htag (henter tag)
  next kind hkind => exact absurd hkind (hleave kind)
  · exact addText hleaf h
  · exact addInline hleaf h
  · exact addHtml hleaf h
  · exact addInline hleaf h
  · exact addBreak hleaf h
  · exact addBreak hleaf h
  next hevent => exact absurd hevent hrule
  · cases h
    exact refl hleaf

theorem enter {tag : Tag} (hleaf : b.leaf = some leaf) (htag : isInlineContainer tag.kind)
    (h : b.enter tag range = some b') : StaysIn leaf b b' := by
  obtain ⟨kind, b₁, -, hensure, rfl⟩ := exists_pushFrame_of_enter htag h
  refine (ensureLeaf hleaf hensure).trans fun leaf₁ hleaf₁ => ?_
  unfold pushFrame
  split
  · exact ⟨leaf₁, b₁.skippedFrames + 1, by rw [← hleaf₁], rfl, rfl⟩
  · exact mapLeaf hleaf₁ rfl rfl

theorem leaveFrame (hleaf : b.leaf = some leaf) : StaysIn leaf b b.leaveFrame := by
  unfold Builder.leaveFrame
  split
  · exact ⟨leaf, b.skippedFrames - 1, by rw [← hleaf], rfl, rfl⟩
  · obtain ⟨root, frames, hclose⟩ := leaf.exists_closeFrame
    exact mapLeaf hleaf (by rw [hclose]) (by rw [hclose])

/-- A run over events in a leaf that are no blocks. -/
theorem run (forest : EventForest) (hforest : forest.Blockless) (hleaf : b.leaf = some leaf)
    (h : b.run forest.events = some b') : StaysIn leaf b b' := by
  induction forest generalizing b b' leaf with
  | nil =>
    cases h
    exact refl hleaf
  | event e henter hleave rest ih =>
    obtain ⟨hrule, hrest⟩ := hforest
    obtain ⟨b₁, hstep, h⟩ := EventForest.exists_of_run_event h
    exact (step hleaf henter hleave hrule hstep).trans fun leaf₁ hleaf₁ => ih hrest hleaf₁ h
  | enclose tag range range' inner rest ih ih' =>
    obtain ⟨hblock, hleafBlock, hinner, hrest⟩ := hforest
    obtain ⟨b₁, b₂, b₃, henter, hrun, hleave, h⟩ := EventForest.exists_of_run_enclose h
    rcases tag.classes with hother | hinline | hother | rfl
    · rw [hother] at hblock
      cases hblock
    · rw [leave_inlineContainer hinline] at hleave
      cases hleave
      exact (enter hleaf hinline henter).trans fun leaf₁ hleaf₁ =>
        (ih hinner hleaf₁ hrun).trans fun leaf₂ hleaf₂ =>
          (leaveFrame hleaf₂).trans fun leaf₃ hleaf₃ => ih' hrest hleaf₃ h
    · rw [hother] at hleafBlock
      cases hleafBlock
    · cases henter
      cases hleave
      exact (ih hinner hleaf hrun).trans fun leaf₁ hleaf₁ => ih' hrest hleaf₁ h

end StaysIn

/-! ### Blocks that stay -/

/-- Of two lists of containers, those of the second hold blocks where those of the first do. -/
def KeepsFilled (cs cs' : List Container) : Prop :=
  List.Forall₂ (fun c c' => c.reversed ≠ [] → c'.reversed ≠ []) cs cs'

/-- The innermost container holds a block. -/
def Holds (b : Builder) : Prop := ∃ c rest, b.containers = c :: rest ∧ c.reversed ≠ []

theorem holds_pushBlock (h : b.containers ≠ []) (block : Block) : (b.pushBlock block).Holds := by
  obtain ⟨c, rest, hcons⟩ := List.exists_cons_of_ne_nil h
  unfold pushBlock
  rw [hcons]
  exact ⟨_, rest, rfl, List.cons_ne_nil _ _⟩

namespace KeepsFilled

theorem refl (cs : List Container) : KeepsFilled cs cs := List.forall₂_same.2 fun _ _ hc => hc

theorem trans {cs cs' cs'' : List Container} (h : KeepsFilled cs cs')
    (h' : KeepsFilled cs' cs'') : KeepsFilled cs cs'' := by
  unfold KeepsFilled at h h' ⊢
  induction h generalizing cs'' with
  | nil => exact h'
  | cons hhead _ ih =>
    cases h' with
    | cons hhead' htail' => exact .cons (hhead' ∘ hhead) (ih htail')

theorem tail {cs cs' : List Container} (h : KeepsFilled cs cs') : KeepsFilled cs.tail cs'.tail := by
  cases h with
  | nil => exact .nil
  | cons _ htail => exact htail

theorem pushBlock (b : Builder) (block : Block) :
    KeepsFilled b.containers (b.pushBlock block).containers := by
  unfold Builder.pushBlock
  split
  · exact .refl _
  next c rest hcons =>
    rw [hcons]
    exact .cons (fun _ => List.cons_ne_nil _ _) (KeepsFilled.refl rest)

theorem markLoose (b : Builder) : KeepsFilled b.containers b.markLoose.containers := by
  unfold Builder.markLoose
  split
  next hcons =>
    rw [hcons]
    exact .cons id (.cons id (KeepsFilled.refl _))
  · exact .refl _

theorem flushDefinitions {limit : Option Nat} (h : b.flushDefinitions limit = some b') :
    KeepsFilled b.containers b'.containers := by
  simp only [Builder.flushDefinitions, Option.bind_eq_bind, Option.bind_eq_some_iff,
    Option.some.injEq] at h
  obtain ⟨⟨definitions, ranges, cursor⟩, -, rfl⟩ := h
  split
  · exact .refl _
  · exact pushBlock { b with definitions := ranges, cursor } _

/-- Work inside of a container takes no block away. -/
theorem of_fills {p : Prop} (h : Fills p b b') : KeepsFilled b.containers b'.containers := by
  induction h with
  | move b leaf cursor => exact .refl _
  | pushBlock b _ => exact pushBlock b _
  | markLoose b => exact markLoose b
  | flushDefinitions _ hflush => exact flushDefinitions hflush
  | trans _ _ ih ih' => exact ih.trans ih'

theorem holds (h : KeepsFilled b.containers b'.containers) (hb : b.Holds) : b'.Holds := by
  obtain ⟨c, rest, hcons, hc⟩ := hb
  rw [hcons] at h
  obtain ⟨c', rest', hc', -, hcons'⟩ := List.forall₂_cons_left_iff.1 h
  exact ⟨c', rest', hcons', hc' hc⟩

/-- What the containers hold around one that is left stays in them. -/
theorem leave {kind : TagKind} (hkind : isBlockContainer kind) (hskipped : b.skippedContainers = 0)
    (h : b.leave kind range = some b') : KeepsFilled b.containers.tail b'.containers := by
  unfold Builder.leave at h
  rw [if_neg (opened_of_none_skipped hskipped kind)] at h
  cases kind with
  | blockQuote =>
    simp only [leaveQuote, Option.bind_eq_bind, Option.bind_eq_some_iff] at h
    obtain ⟨b₁, hclose, b₂, hflush, last, -, trailing, -, h⟩ := h
    refine ((of_fills (fills_closeImplicit (p := True) hclose)).trans
      (flushDefinitions hflush)).tail.trans ?_
    split at h
    next hnil =>
      cases h
      rw [hnil]
      exact .nil
    next c rest hcons =>
      rw [hcons]
      split at h
      · simp only [Option.bind_eq_some_iff, Option.some.injEq] at h
        obtain ⟨lineStart, -, text, -, rfl⟩ := h
        exact pushBlock { b₂ with containers := rest } _
      · cases h
        exact .refl rest
  | item =>
    simp only [leaveItem, Option.bind_eq_bind, Option.bind_eq_some_iff] at h
    obtain ⟨b₁, hclose, b₂, hflush, h⟩ := h
    refine ((of_fills (fills_closeImplicit (p := True) hclose)).trans
      (flushDefinitions hflush)).tail.trans ?_
    split at h
    next hnil =>
      cases h
      rw [hnil]
      exact .nil
    next hcons =>
      cases h
      rw [hcons]
      exact .cons id (KeepsFilled.refl _)
    next hcons =>
      cases h
      rw [hcons]
      exact .refl _
  | list =>
    cases h
    unfold leaveList
    split
    next hnil =>
      rw [hnil]
      exact .nil
    next rest hcons =>
      rw [hcons]
      exact pushBlock { b with containers := rest } _
    next hcons =>
      rw [hcons]
      exact .refl _
  | _ => cases hkind

/-- A container takes no block away from those around it, if what is in it does not. -/
theorem enclose {tag : Tag} {range' : ByteRange} {b₁ b₂ : Builder}
    (henter : b.enter tag range = some b₁) (hskeleton : b₂.skeleton = b₁.skeleton)
    (hinner : KeepsFilled b₁.containers b₂.containers)
    (hleave : b₂.leave tag.kind range' = some b') :
    KeepsFilled b.containers b'.containers := by
  have skipped := skippedContainers_congr hskeleton
  by_cases hblock : isBlockContainer tag.kind
  · rcases enter_container hblock henter with ⟨-, rfl⟩ | ⟨hopens, b₀, kind, lines, hfills, -, rfl⟩
    · rw [leave_of_skipped hblock (by rw [skipped]; exact Nat.succ_pos _)] at hleave
      cases hleave
      exact hinner
    · have none_skipped : b₂.skippedContainers = 0 :=
        skipped.trans ((skippedContainers_congr hfills.skeleton).trans
          (none_skipped_of_opens hopens))
      exact (of_fills hfills).trans (hinner.tail.trans (leave hblock none_skipped hleave))
  by_cases hinline : isInlineContainer tag.kind
  · obtain ⟨kind, b₀, -, hensure, rfl⟩ := exists_pushFrame_of_enter hinline henter
    rw [leave_inlineContainer hinline] at hleave
    cases hleave
    rw [containers_pushFrame] at hinner
    have left : b₂.leaveFrame.containers = b₂.containers := by
      unfold leaveFrame
      split <;> rfl
    rw [left]
    exact (of_fills (fills_ensureLeaf hensure)).trans hinner
  · rw [Bool.not_eq_true] at hblock hinline
    exact (of_fills (fills_enter hblock hinline henter)).trans
      (hinner.trans (of_fills (fills_leave hblock hinline hleave)))

/-- **A balanced run takes no block away.** -/
theorem run (forest : EventForest) (h : b.run forest.events = some b') :
    KeepsFilled b.containers b'.containers := by
  induction forest generalizing b b' with
  | nil =>
    cases h
    exact .refl _
  | event e henter hleave rest ih =>
    obtain ⟨b₁, hstep, hrest⟩ := EventForest.exists_of_run_event h
    exact (of_fills (fills_step henter hleave hstep)).trans (ih hrest)
  | enclose tag range range' inner rest ih ih' =>
    obtain ⟨b₁, b₂, b₃, henter, hinner, hleave, hrest⟩ := EventForest.exists_of_run_enclose h
    exact (enclose henter (skeleton_run inner hinner) (ih hinner) hleave).trans (ih' hrest)

end KeepsFilled

/-! ### Blocks that are built -/

theorem containers_ne_nil_of_skeleton {kind : ContainerKind} {kinds : List ContainerKind}
    {skipped : Nat × Nat} (h : b.skeleton = (kind :: kinds, skipped)) : b.containers ≠ [] := by
  intro hnil
  have kinds_eq : b.containers.map (·.kind.bare) = kind :: kinds := congrArg Prod.fst h
  rw [hnil] at kinds_eq
  cases kinds_eq

theorem holds_addRule (h : b.containers ≠ []) (hb : b.addRule range = some b') : b'.Holds := by
  simp only [addRule, Option.bind_eq_bind, Option.bind_eq_some_iff, Option.some.injEq] at hb
  obtain ⟨⟨lines, b₁⟩, hbegin, last, -, content, -, rfl⟩ := hb
  exact holds_pushBlock (containers_ne_nil (fills_beginBlock hbegin).skeleton h) _

/-- Entering a leaf block opens a leaf for it. -/
theorem exists_leaf_of_enter {tag : Tag} (htag : tag.kind.isLeafBlock)
    (h : b.enter tag range = some b') : ∃ leaf, b'.leaf = some leaf ∧ leaf.kind.tag = tag.kind := by
  cases tag with
  | paragraph =>
    simp only [enter, enterParagraph, Option.bind_eq_bind, Option.bind_eq_some_iff,
      Option.some.injEq] at h
    obtain ⟨⟨lines, b₁⟩, -, rfl⟩ := h
    exact ⟨_, rfl, rfl⟩
  | heading _ | codeBlock _ | htmlBlock =>
    simp only [enter, beginLeaf, Option.bind_eq_bind, Option.bind_eq_some_iff,
      Option.some.injEq] at h
    obtain ⟨⟨lines, b₁⟩, -, rfl⟩ := h
    exact ⟨_, rfl, rfl⟩
  | _ => cases htag

/-- A leaf block is left that is still open. -/
theorem holds_leave_leafBlock {kind : TagKind} {leaf : Leaf} (hkind : kind.isLeafBlock)
    (hne : b.containers ≠ []) (hleaf : b.leaf = some leaf) (htag : leaf.kind.tag = kind)
    (h : b.leave kind range = some b') : b'.Holds := by
  obtain ⟨kind', start, stop, lines, root, frames⟩ := leaf
  cases kind with
  | paragraph =>
    change b.closeParagraph range.stop = some b' at h
    simp only [closeParagraph, hleaf, Option.bind_eq_bind, Option.bind_eq_some_iff,
      Option.some.injEq] at h
    obtain ⟨last, -, rfl⟩ := h
    exact holds_pushBlock (b := { b with leaf := none }) hne _
  | heading =>
    cases kind' with
    | heading level =>
      change b.closeHeading range = some b' at h
      simp only [closeHeading, hleaf, Option.bind_eq_bind, Option.bind_eq_some_iff,
        Option.some.injEq] at h
      obtain ⟨last, -, rfl⟩ := h
      exact holds_pushBlock (b := { b with leaf := none }) hne _
    | _ => cases htag
  | codeBlock =>
    cases kind' with
    | code text info =>
      change b.closeCode range = some b' at h
      simp only [closeCode, hleaf, Option.bind_eq_bind] at h
      obtain ⟨last, -, h⟩ := Option.bind_eq_some_iff.1 h
      split at h <;> obtain ⟨fence, -, h⟩ := Option.bind_eq_some_iff.1 h <;> cases h <;>
        exact holds_pushBlock (b := { b with leaf := none }) hne _
    | _ => cases htag
  | htmlBlock =>
    cases kind' with
    | html text =>
      change b.closeHtml range = some b' at h
      simp only [closeHtml, hleaf, Option.bind_eq_bind, Option.bind_eq_some_iff,
        Option.some.injEq] at h
      obtain ⟨last, -, rfl⟩ := h
      exact holds_pushBlock (b := { b with leaf := none }) hne _
    | _ => cases htag
  | _ => cases hkind

/-- A block container that is opened is the innermost of the open ones, and none are counted. -/
theorem exists_skeleton_of_opens {tag : Tag} (htag : isBlockContainer tag.kind)
    (hopens : b.opens tag.kind = true) (h : b.enter tag range = some b') :
    ∃ opened frames, Opens range opened tag ∧
      b'.skeleton = (opened.bare :: b.skeleton.1, 0, frames) := by
  rcases enter_container htag h with ⟨hcounted, -⟩ | ⟨-, b₁, opened, lines, hfills, hkind, rfl⟩
  · cases hopens.symm.trans hcounted
  · refine ⟨opened, b.skippedFrames, hkind, ?_⟩
    show (opened.bare :: b₁.skeleton.1, b₁.skeleton.2) = _
    rw [hfills.skeleton]
    exact congrArg (_ :: _, ·, _) (none_skipped_of_opens hopens)

/-- While no containers are counted, the end of a quote is that of an open one. -/
theorem leaveQuote_of_leave (hskipped : b.skippedContainers = 0)
    (h : b.leave .blockQuote range = some b') : b.leaveQuote range = some b' := by
  unfold leave at h
  rwa [if_neg (opened_of_none_skipped hskipped _)] at h

/-- A quote that was opened is left: it becomes a block of the container around it. -/
theorem exists_of_leaveQuote {start : Nat} {kinds : List ContainerKind} {skipped : Nat × Nat}
    (hskeleton : b.skeleton = (.quote start :: kinds, skipped)) (hkinds : kinds ≠ [])
    (h : b.leaveQuote range = some b') :
    ∃ b₁ b₂ c rest last lines blocks trivia, b.closeImplicit = some b₁ ∧
      b₁.flushDefinitions (some range.stop) = some b₂ ∧ b₂.containers = c :: rest ∧ rest ≠ [] ∧
      blockEnd? b₂.source range = some last ∧ (c.reversed ≠ [] → blocks ≠ []) ∧
      b' = { ({ b₂ with containers := rest } : Builder).pushBlock (.quote lines blocks trivia) with
        cursor := max (({ b₂ with containers := rest } : Builder).pushBlock
          (.quote lines blocks trivia)).cursor last.stop } := by
  simp only [leaveQuote, Option.bind_eq_bind, Option.bind_eq_some_iff] at h
  obtain ⟨b₁, hclose, b₂, hflush, last, hlast, trailing, -, h⟩ := h
  have skeleton : b₂.skeleton = _ := (skeleton_flushDefinitions hflush).trans
    ((fills_closeImplicit (p := True) hclose).skeleton.trans hskeleton)
  split at h
  next hnil => exact absurd hnil (containers_ne_nil_of_skeleton skeleton)
  next c rest hcons =>
    have kinds_eq : c.kind.bare :: rest.map (·.kind.bare) = .quote start :: kinds := by
      have := congrArg Prod.fst skeleton
      rwa [Builder.skeleton, hcons] at this
    obtain ⟨hbare, hrest⟩ := List.cons.inj kinds_eq
    have hne : rest ≠ [] := by
      rintro rfl
      exact hkinds hrest.symm
    split at h
    · simp only [Option.bind_eq_some_iff, Option.some.injEq] at h
      obtain ⟨lineStart, -, text, -, rfl⟩ := h
      refine ⟨b₁, b₂, c, rest, last, _, _, _, hclose, hflush, hcons, hne, hlast, fun hc => ?_, rfl⟩
      rw [Ne, List.reverse_eq_nil_iff]
      split
      · exact hc
      · obtain ⟨block, more, hblocks⟩ := List.exists_cons_of_ne_nil hc
        rw [hblocks]
        exact List.cons_ne_nil _ _
    next hother =>
      cases hkind : c.kind with
      | quote start' => exact absurd hkind (hother start')
      | document | list _ _ | item =>
        rw [hkind] at hbare
        cases hbare

/-- A list that was opened is left: it becomes a block of the container around it. -/
theorem holds_leaveList {style : ListStyle} {items : List ListItem} {kinds : List ContainerKind}
    {skipped : Nat × Nat} (hskeleton : b.skeleton = (.list style items :: kinds, skipped))
    (hkinds : kinds ≠ []) : b.leaveList.Holds := by
  have kinds_eq : b.containers.map (·.kind.bare) = .list style items :: kinds :=
    congrArg Prod.fst hskeleton
  unfold leaveList
  split
  next hnil => exact absurd hnil (containers_ne_nil_of_skeleton hskeleton)
  next rest hcons =>
    refine holds_pushBlock (b := { b with containers := rest }) ?_ _
    rintro rfl
    rw [hcons] at kinds_eq
    exact hkinds (List.cons.inj kinds_eq).2.symm
  next c rest hother hcons =>
    rw [hcons] at kinds_eq
    obtain ⟨kind', reversed, lines⟩ := c
    cases kind' with
    | list style items => exact absurd rfl (hother style items reversed lines)
    | _ => cases (List.cons.inj kinds_eq).1

/-- Some more levels of nesting fit into a container. -/
structure Room (levels : Nat) (b : Builder) : Prop where
  containers : b.containers ≠ []
  skipped : b.skippedContainers = 0
  fits : b.depth + levels ≤ b.options.maxDepth

namespace Room

variable {levels : Nat}

theorem congr (h : b.Room levels) (hskeleton : b'.skeleton = b.skeleton)
    (hreading : b'.reading = b.reading) : b'.Room levels where
  containers := containers_ne_nil hskeleton h.containers
  skipped := (skippedContainers_congr hskeleton).trans h.skipped
  fits := by
    have options : b'.options = b.options := congrArg Prod.snd hreading
    rw [options, depth, length_containers_congr hskeleton]
    exact h.fits

theorem fits_of_le {n : Nat} (h : b.Room levels) (hn : n ≤ levels) : b.fits n = true := by
  have := h.fits
  simp only [Builder.fits, h.skipped, beq_self_eq_true, Bool.true_and, decide_eq_true_eq]
  omega

/-- All levels there are fit into a document. -/
theorem of_document (h : b.skeleton = ([.document], 0, 0)) : b.Room b.options.maxDepth := by
  have length : b.containers.length = 1 := by
    simpa [skeleton] using congrArg (·.1.length) h
  refine ⟨containers_ne_nil_of_skeleton h, congrArg (·.2.1) h, ?_⟩
  rw [depth, length]
  omega

/-- A container that is opened takes one level. -/
theorem enter {tag : Tag} (h : b.Room (levels + 1)) (htag : isBlockContainer tag.kind)
    (hopens : b.opens tag.kind = true) (henter : b.enter tag range = some b') :
    b'.Room levels := by
  obtain ⟨opened, frames, -, skeleton⟩ := exists_skeleton_of_opens htag hopens henter
  have length : b'.containers.length = b.containers.length + 1 := by
    simpa [Builder.skeleton] using congrArg (·.1.length) skeleton
  have options : b'.options = b.options := congrArg Prod.snd (reading_enter henter)
  have fits := h.fits
  have hpos := List.length_pos_iff.2 h.containers
  refine ⟨containers_ne_nil_of_skeleton skeleton, congrArg (·.2.1) skeleton, ?_⟩
  rw [depth] at fits
  rw [depth, length, options]
  omega

/-- The block of a container stands in the one around it when it is left. -/
theorem holds_enclose {tag : Tag} {range' : ByteRange} {inner : EventForest} {b₁ b₂ : Builder}
    (h : b.Room levels) (hblock : tag.kind.BecomesBlock levels inner)
    (henter : b.enter tag range = some b₁) (hrun : b₁.run inner.events = some b₂)
    (hleave : b₂.leave tag.kind range' = some b') : b'.Holds := by
  have skeleton := skeleton_run inner hrun
  have hkinds : b.skeleton.1 ≠ [] := fun hnil => h.containers (List.map_eq_nil_iff.1 hnil)
  have leafBlock (htag : tag.kind.isLeafBlock) (hinner : inner.Blockless) : b'.Holds := by
    obtain ⟨leaf, hleaf, hkind⟩ := exists_leaf_of_enter htag henter
    obtain ⟨leaf', skipped, rfl, hkind', -⟩ := StaysIn.run inner hinner hleaf hrun
    have fills := fills_enter (TagKind.isBlockContainer_of_isLeafBlock htag)
      (TagKind.isInlineContainer_of_isLeafBlock htag) henter
    have hne : b₁.containers ≠ [] := containers_ne_nil fills.skeleton h.containers
    exact holds_leave_leafBlock (b := { b₁ with leaf := some leaf', skippedFrames := skipped }) htag
      hne rfl (hkind'.trans hkind) hleave
  cases tag with
  | blockQuote =>
    have hopens : b.opens Tag.blockQuote.kind = true := h.fits_of_le hblock
    obtain ⟨_, frames, rfl, opened⟩ := exists_skeleton_of_opens rfl hopens henter
    have hskipped : b₂.skippedContainers = 0 := congrArg (·.2.1) (skeleton.trans opened)
    obtain ⟨-, b₃, -, rest, -, -, -, -, -, -, -, hne, -, -, rfl⟩ :=
      exists_of_leaveQuote (skeleton.trans opened) hkinds (leaveQuote_of_leave hskipped hleave)
    exact holds_pushBlock (b := { b₃ with containers := rest }) hne _
  | list first =>
    have hopens : b.opens (Tag.list first).kind = true := h.fits_of_le hblock
    obtain ⟨_, frames, ⟨style, rfl⟩, opened⟩ := exists_skeleton_of_opens rfl hopens henter
    have hskipped : b₂.skippedContainers = 0 := congrArg (·.2.1) (skeleton.trans opened)
    unfold leave at hleave
    rw [if_neg (opened_of_none_skipped hskipped _)] at hleave
    cases hleave
    exact holds_leaveList (skeleton.trans opened) hkinds
  | paragraph | heading _ | codeBlock _ | htmlBlock => exact leafBlock rfl hblock.2
  | item | emphasis | strong | strikethrough | link _ _ _ | image _ _ _ | other => cases hblock.1

/-- **A container holds a block behind a run over the events of some block.** -/
theorem holds_run (forest : EventForest) (h : b.Room levels) (hforest : forest.HasBlock levels)
    (hrun : b.run forest.events = some b') : b'.Holds := by
  induction forest generalizing b with
  | nil => exact hforest.elim
  | event e henter hleave rest ih =>
    obtain ⟨b₁, hstep, hrest⟩ := EventForest.exists_of_run_event hrun
    have fills := fills_step henter hleave hstep
    rcases hforest with hrule | hforest
    · have added : b.addRule e.range = some b₁ := by rwa [step, hrule] at hstep
      exact (KeepsFilled.run rest hrest).holds (holds_addRule h.containers added)
    · exact ih (h.congr fills.skeleton (reading_step hstep)) hforest hrest
  | enclose tag range range' inner rest ih ih' =>
    obtain ⟨b₁, b₂, b₃, henter, hinner, hleave, hrest⟩ := EventForest.exists_of_run_enclose hrun
    rcases hforest with hblock | hforest
    · exact (KeepsFilled.run rest hrest).holds (h.holds_enclose hblock henter hinner hleave)
    · refine ih' (h.congr (skeleton_enclose henter (skeleton_run inner hinner) hleave) ?_) hforest
        hrest
      exact (reading_leave hleave).trans ((reading_run hinner).trans (reading_enter henter))

end Room

end Builder

end MarkdownSpans
