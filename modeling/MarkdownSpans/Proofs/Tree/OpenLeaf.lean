import MarkdownSpans.Proofs.Tree.Pruning

/-!
# What becomes of the open leaf

Blocks that are entered and left close a leaf only if the inlines of an item stand in it
(`Builder.keptLeaf`). Any other leaf stays open beside them until a leaf block takes its place or is
left, and no inline opens a leaf while one is open.
-/

namespace MarkdownSpans

/-- A leaf extended to a position. -/
def Leaf.reach (stop : Nat) (leaf : Leaf) : Leaf := { leaf with stop := max leaf.stop stop }

namespace Builder

variable {b b' : Builder} {range : ByteRange}

/-! ### Blocks -/

@[simp] theorem leaf_pushBlock (b : Builder) (block : Block) :
    (b.pushBlock block).leaf = b.leaf := by
  unfold pushBlock
  split <;> rfl

@[simp] theorem leaf_markLoose (b : Builder) : b.markLoose.leaf = b.leaf := by
  unfold markLoose
  split <;> rfl

theorem leaf_flushDefinitions {limit : Option Nat} (h : b.flushDefinitions limit = some b') :
    b'.leaf = b.leaf := by
  simp only [flushDefinitions, Option.bind_eq_bind, Option.bind_eq_some_iff,
    Option.some.injEq] at h
  obtain ⟨⟨definitions, ranges, cursor⟩, -, rfl⟩ := h
  split
  · rfl
  · exact leaf_pushBlock _ _

theorem leaf_closeParagraph {stop : Nat} (h : b.closeParagraph stop = some b') :
    b'.leaf = none := by
  unfold closeParagraph at h
  split at h
  next hnone =>
    cases h
    exact hnone
  · simp only [Option.bind_eq_bind, Option.bind_eq_some_iff, Option.some.injEq] at h
    obtain ⟨last, -, rfl⟩ := h
    exact leaf_pushBlock _ _

/-- A leaf is left as it is, unless inlines of an item stand in it. -/
def keptLeaf (leaf? : Option Leaf) : Option Leaf :=
  leaf?.bind fun leaf => if leaf.kind = .paragraph true then none else some leaf

theorem mem_keptLeaf {leaf? : Option Leaf} {leaf : Leaf} :
    leaf ∈ keptLeaf leaf? ↔ leaf ∈ leaf? ∧ leaf.kind ≠ .paragraph true := by
  constructor
  · intro h
    obtain ⟨leaf', hleaf', hkept⟩ := Option.bind_eq_some_iff.1 h
    split_ifs at hkept with himplicit
    cases hkept
    exact ⟨hleaf', himplicit⟩
  · rintro ⟨hleaf, hkind⟩
    exact Option.bind_eq_some_iff.2 ⟨leaf, hleaf, if_neg hkind⟩

theorem leaf_closeImplicit (h : b.closeImplicit = some b') : b'.leaf = keptLeaf b.leaf := by
  unfold closeImplicit at h
  split at h
  next start stop lines root frames hleaf =>
    rw [leaf_closeParagraph h, hleaf]
    rfl
  next hother =>
    cases h
    cases hleaf : b.leaf with
    | none => rfl
    | some leaf =>
      have kept : leaf.kind ≠ .paragraph true := by
        rintro himplicit
        obtain ⟨kind, start, stop, lines, root, frames⟩ := leaf
        obtain rfl : kind = .paragraph true := himplicit
        exact hother start stop lines root frames hleaf
      exact (if_neg kept).symm

theorem leaf_beginBlock {start : Nat} {lines : Option (List Line)}
    (h : b.beginBlock start = some (lines, b')) : b'.leaf = keptLeaf b.leaf := by
  simp only [beginBlock, Option.bind_eq_bind, Option.bind_eq_some_iff, Option.some.injEq,
    Prod.mk.injEq] at h
  obtain ⟨b₁, hclose, b₂, hflush, lineStart, -, gap, -, -, rfl⟩ := h
  exact (leaf_flushDefinitions hflush).trans (leaf_closeImplicit hclose)

theorem leaf_addRule (h : b.addRule range = some b') : b'.leaf = keptLeaf b.leaf := by
  simp only [addRule, Option.bind_eq_bind, Option.bind_eq_some_iff, Option.some.injEq] at h
  obtain ⟨⟨lines, b₁⟩, hbegin, last, -, content, -, rfl⟩ := h
  exact (leaf_pushBlock b₁ _).trans (leaf_beginBlock hbegin)

/-! ### Leaf blocks -/

/-- A leaf that is opened is empty. -/
theorem leaf_beginLeaf {kind : LeafKind} {start : Nat} (h : b.beginLeaf kind start = some b') :
    ∃ linesBefore, b'.leaf = some { kind, start, stop := start, linesBefore } := by
  simp only [beginLeaf, Option.bind_eq_bind, Option.bind_eq_some_iff, Option.some.injEq] at h
  obtain ⟨⟨lines, b₁⟩, -, rfl⟩ := h
  exact ⟨lines, rfl⟩

/-- The kind of leaf that is opened for the tag of a leaf block. -/
def leafKind? : Tag → Option LeafKind
  | .paragraph => some (.paragraph false)
  | .heading level => some (.heading level)
  | .codeBlock info => some (.code "" info)
  | .htmlBlock => some (.html "")
  | _ => none

theorem leaf_enter {tag : Tag} {kind : LeafKind} (hkind : leafKind? tag = some kind)
    (h : b.enter tag range = some b') :
    ∃ linesBefore, b'.leaf =
      some { kind, start := range.start, stop := range.start, linesBefore } := by
  cases tag with
  | paragraph =>
    obtain rfl := Option.some.inj hkind
    simp only [enter, enterParagraph, Option.bind_eq_bind, Option.bind_eq_some_iff,
      Option.some.injEq] at h
    obtain ⟨⟨lines, b₁⟩, -, rfl⟩ := h
    exact ⟨lines, rfl⟩
  | heading | codeBlock | htmlBlock =>
    obtain rfl := Option.some.inj hkind
    exact leaf_beginLeaf h
  | _ => cases hkind

/-- Leaving a leaf block leaves no leaf open. -/
theorem leaf_leave {kind : TagKind} (hkind : kind.isLeafBlock) (h : b.leave kind range = some b') :
    b'.leaf = none := by
  cases kind with
  | paragraph => exact leaf_closeParagraph h
  | heading =>
    change b.closeHeading range = some b' at h
    unfold closeHeading at h
    split at h
    · simp only [Option.bind_eq_bind, Option.bind_eq_some_iff, Option.some.injEq] at h
      obtain ⟨last, -, rfl⟩ := h
      exact leaf_pushBlock _ _
    · cases h
      rfl
  | codeBlock =>
    change b.closeCode range = some b' at h
    unfold closeCode at h
    split at h
    · obtain ⟨last, -, h⟩ := Option.bind_eq_some_iff.1 h
      split at h <;> obtain ⟨fence, -, h⟩ := Option.bind_eq_some_iff.1 h <;> cases h <;>
        exact leaf_pushBlock _ _
    · cases h
      rfl
  | htmlBlock =>
    change b.closeHtml range = some b' at h
    unfold closeHtml at h
    split at h
    · simp only [Option.bind_eq_bind, Option.bind_eq_some_iff, Option.some.injEq] at h
      obtain ⟨last, -, rfl⟩ := h
      exact leaf_pushBlock _ _
    · cases h
      rfl
  | _ => cases hkind

/-! ### Containers -/

/-- The leaf when a block container is opened. -/
theorem leaf_enter_container {tag : Tag} (hopens : b.opens tag.kind = true)
    (h : b.enter tag range = some b') : b'.leaf = keptLeaf b.leaf := by
  cases tag with
  | blockQuote =>
    have hfits : b.fits 1 = true := hopens
    simp only [enter, enterQuote, hfits, if_true] at h
    simp only [Option.bind_eq_bind, Option.bind_eq_some_iff, Option.some.injEq] at h
    obtain ⟨⟨lines, b₁⟩, hbegin, rfl⟩ := h
    show b₁.leaf = keptLeaf b.leaf
    exact leaf_beginBlock hbegin
  | list first =>
    have hfits : b.fits 2 = true := hopens
    simp only [enter, enterList, hfits, if_true] at h
    simp only [Option.bind_eq_bind, Option.bind_eq_some_iff, Option.some.injEq] at h
    obtain ⟨⟨lines, b₁⟩, hbegin, rest, -, rfl⟩ := h
    show b₁.leaf = keptLeaf b.leaf
    exact leaf_beginBlock hbegin
  | item =>
    have hskipped := none_skipped_of_opens hopens
    simp only [enter, enterItem] at h
    rw [if_neg (by omega)] at h
    simp only [Option.bind_eq_bind, Option.bind_eq_some_iff, Option.some.injEq] at h
    obtain ⟨b₁, hclose, rfl⟩ := h
    show b₁.leaf = keptLeaf b.leaf
    exact leaf_closeImplicit hclose
  | _ => cases hopens

/-- The leaf when a block container that was opened is left. -/
theorem leaf_leave_container {kind : TagKind} (hkind : isBlockContainer kind)
    (hskipped : b.skippedContainers = 0) (h : b.leave kind range = some b') :
    b'.leaf = if kind = .list then b.leaf else keptLeaf b.leaf := by
  unfold leave at h
  rw [if_neg (opened_of_none_skipped hskipped kind)] at h
  cases kind with
  | blockQuote =>
    simp only [leaveQuote, Option.bind_eq_bind, Option.bind_eq_some_iff] at h
    obtain ⟨b₁, hclose, b₂, hflush, last, -, trailing, -, h⟩ := h
    refine Eq.trans ?_ ((leaf_flushDefinitions hflush).trans (leaf_closeImplicit hclose))
    split at h
    · cases h
      rfl
    · split at h
      · simp only [Option.bind_eq_some_iff, Option.some.injEq] at h
        obtain ⟨lineStart, -, text, -, rfl⟩ := h
        exact leaf_pushBlock _ _
      · cases h
        rfl
  | list =>
    obtain rfl := Option.some.inj h
    rw [if_pos rfl]
    unfold leaveList
    split
    · rfl
    · exact leaf_pushBlock _ _
    · rfl
  | item =>
    simp only [leaveItem, Option.bind_eq_bind, Option.bind_eq_some_iff] at h
    obtain ⟨b₁, hclose, b₂, hflush, h⟩ := h
    refine Eq.trans ?_ ((leaf_flushDefinitions hflush).trans (leaf_closeImplicit hclose))
    split at h <;> cases h <;> rfl
  | _ => cases hkind

/-! ### Inlines -/

/-- An inline is added to the open leaf, or to an empty one that is opened for it. -/
theorem leaf_ensureLeaf (h : b.ensureLeaf range = some b') :
    ∃ linesBefore, b'.leaf = some (Leaf.reach range.stop (b.leaf.getD
      { kind := .paragraph true, start := range.start, stop := range.start, linesBefore })) := by
  simp only [ensureLeaf, Option.bind_eq_bind] at h
  split at h
  next hnone =>
    obtain ⟨b₁, hbegin, h⟩ := Option.bind_eq_some_iff.1 h
    obtain rfl := Option.some.inj h
    obtain ⟨linesBefore, hleaf⟩ := leaf_beginLeaf hbegin
    refine ⟨linesBefore, ?_⟩
    rw [hnone, mapLeaf, hleaf]
    rfl
  next leaf hleaf =>
    obtain rfl := Option.some.inj h
    refine ⟨none, ?_⟩
    rw [mapLeaf, hleaf]
    rfl

end Builder

end MarkdownSpans
