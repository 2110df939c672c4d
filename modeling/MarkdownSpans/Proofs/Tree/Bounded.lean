import MarkdownSpans.Proofs.Tree.DefinitionOrder
import MarkdownSpans.Proofs.Tree.LineBound

/-!
# Builders that stay before the end of a line

If all events and link definitions lie before some end of a line, then a builder keeps nothing but
positions up to there (`Builder.Bounded`): each operation that succeeds leads to such a builder
again. The definitions that still wait begin before a position of their own, so that they are put
into the document by the time a block begins there.
-/

namespace MarkdownSpans

namespace Builder

/-- The source is cut at the end of a line, and what a builder keeps lies before it; link
definitions begin before some position. -/
structure Bounded (head tail : List Char) (latest : Nat) (b : Builder) : Prop where
  seam : LineSeam head tail
  source_eq : b.source = head ++ tail
  cursor : b.cursor ≤ byteLength head
  leaf : ∀ leaf ∈ b.leaf, (ByteRange.mk leaf.start leaf.stop).Inside (byteLength head)
  definitions : ∀ range ∈ b.definitions, range.Inside (byteLength head) ∧ range.start < latest

namespace Bounded

variable {head tail : List Char} {latest : Nat} {b b' : Builder} {range : ByteRange}
  {last : LineEnd}

theorem start (seam : LineSeam head tail) {definitions : List ByteRange}
    (h : ∀ range ∈ definitions, range.Inside (byteLength head) ∧ range.start < latest)
    (options : BuildOptions) :
    (Builder.start (head ++ tail) definitions options).Bounded head tail latest :=
  ⟨seam, rfl, Nat.zero_le _, nofun, h⟩

/-- The end of a block before the end of the line. -/
theorem stop_le (h : b.Bounded head tail latest) (hrange : range.Inside (byteLength head))
    (hlast : blockEnd? b.source range = some last) : last.stop ≤ byteLength head :=
  h.seam.blockEnd?_stop_le (h.source_eq ▸ hlast) hrange

/-! ### Changes of fields -/

theorem moveTo {cursor : Nat} (h : b.Bounded head tail latest)
    (hcursor : cursor ≤ byteLength head) :
    ({ b with cursor } : Builder).Bounded head tail latest :=
  ⟨h.seam, h.source_eq, hcursor, h.leaf, h.definitions⟩

theorem withLeaf {leaf? : Option Leaf} (h : b.Bounded head tail latest)
    (hleaf : ∀ leaf ∈ leaf?, (ByteRange.mk leaf.start leaf.stop).Inside (byteLength head)) :
    ({ b with leaf := leaf? } : Builder).Bounded head tail latest :=
  ⟨h.seam, h.source_eq, h.cursor, hleaf, h.definitions⟩

theorem dropLeaf (h : b.Bounded head tail latest) :
    ({ b with leaf := none } : Builder).Bounded head tail latest :=
  h.withLeaf nofun

/-- The open containers, and the numbers of those that are counted, hold no positions to keep. -/
theorem withContainers (h : b.Bounded head tail latest) (containers : List Container) (m n : Nat) :
    ({ b with containers, skippedContainers := m, skippedFrames := n } : Builder).Bounded head tail
      latest :=
  ⟨h.seam, h.source_eq, h.cursor, h.leaf, h.definitions⟩

theorem pushBlock (h : b.Bounded head tail latest) (block : Block) :
    (b.pushBlock block).Bounded head tail latest := by
  unfold Builder.pushBlock
  split
  · exact h
  · exact h.withContainers _ _ _

theorem markLoose (h : b.Bounded head tail latest) : b.markLoose.Bounded head tail latest := by
  unfold Builder.markLoose
  split
  · exact h.withContainers _ _ _
  · exact h

theorem mapLeaf (h : b.Bounded head tail latest) {f : Leaf → Leaf}
    (hf : ∀ leaf, (ByteRange.mk leaf.start leaf.stop).Inside (byteLength head) →
      (ByteRange.mk (f leaf).start (f leaf).stop).Inside (byteLength head)) :
    (b.mapLeaf f).Bounded head tail latest := by
  refine h.withLeaf fun changed hchanged => ?_
  obtain ⟨leaf, hleaf, rfl⟩ := Option.map_eq_some_iff.1 hchanged
  exact hf leaf (h.leaf leaf hleaf)

theorem openLeaf (h : b.Bounded head tail latest) {start : Nat} (hstart : start < byteLength head)
    (kind : LeafKind) (lines : Option (List Line)) :
    (b.openLeaf kind start lines).Bounded head tail latest :=
  h.withLeaf fun
    | _, rfl => ⟨hstart, Nat.le_of_lt hstart⟩

/-- A leaf is closed as a block that ends before the end of the line. -/
theorem close (h : b.Bounded head tail latest) (hrange : range.Inside (byteLength head))
    (hlast : blockEnd? b.source range = some last) (block : Block) :
    ({ ({ b with leaf := none } : Builder).pushBlock block with
      cursor := last.stop } : Builder).Bounded head tail latest :=
  (h.dropLeaf.pushBlock block).moveTo (h.stop_le hrange hlast)

/-! ### Blocks -/

theorem closeParagraph {stop : Nat} (h : b.Bounded head tail latest)
    (hstop : stop ≤ byteLength head) (hb : b.closeParagraph stop = some b') :
    b'.Bounded head tail latest := by
  unfold Builder.closeParagraph at hb
  split at hb
  · cases hb
    exact h
  next leaf hleaf =>
    simp only [Option.bind_eq_bind, Option.bind_eq_some_iff, Option.some.injEq] at hb
    obtain ⟨last, hlast, rfl⟩ := hb
    obtain ⟨hstart, hreach⟩ := h.leaf leaf hleaf
    have inside : (ByteRange.mk leaf.start (max stop leaf.stop)).Inside (byteLength head) :=
      ⟨hstart, Nat.max_le.2 ⟨hstop, hreach⟩⟩
    exact h.close inside hlast _

theorem closeImplicit (h : b.Bounded head tail latest) (hb : b.closeImplicit = some b') :
    b'.Bounded head tail latest := by
  unfold Builder.closeImplicit at hb
  split at hb
  next hleaf => exact h.closeParagraph (h.leaf _ hleaf).stop hb
  · cases hb
    exact h

/-- What is left of the definitions are some of them, and none if all begin before the limit. -/
theorem takeDefinitions_spec (seam : LineSeam head tail) {nested : Bool} {limit : Option Nat}
    {ranges ranges' : List ByteRange} {cursor cursor' : Nat} {definitions : List LinkDefinition}
    (hranges : ∀ range ∈ ranges, range.Inside (byteLength head))
    (hcursor : cursor ≤ byteLength head)
    (h : takeDefinitions (head ++ tail) nested limit ranges cursor =
      some (definitions, ranges', cursor')) :
    cursor' ≤ byteLength head ∧ (∀ range ∈ ranges', range ∈ ranges) ∧
      ((∀ range ∈ ranges, limit.all (range.start < ·) = true) → ranges' = []) := by
  induction ranges generalizing cursor definitions with
  | nil =>
    cases h
    exact ⟨hcursor, fun _ hrange => hrange, fun _ => rfl⟩
  | cons range rest ih =>
    obtain ⟨hrange, hrest⟩ := List.forall_mem_cons.1 hranges
    rw [takeDefinitions] at h
    split_ifs at h with hlimit
    · simp only [Option.bind_eq_bind, Option.bind_eq_some_iff, Option.some.injEq,
        Prod.mk.injEq] at h
      obtain ⟨lineStart, -, lines, -, last, hlast, raw, -, ⟨others, ranges₁, cursor₁⟩, htake,
        rfl, rfl, rfl⟩ := h
      obtain ⟨hle, hsub, hnil⟩ := ih hrest (seam.blockEnd?_stop_le hlast hrange) htake
      exact ⟨hle, fun r hr => .tail _ (hsub r hr),
        fun hall => hnil fun r hr => hall r (.tail _ hr)⟩
    · cases h
      exact ⟨hcursor, fun _ hrange => hrange, fun hall => absurd (hall range (.head _)) hlimit⟩

theorem flushDefinitions {limit : Option Nat} (h : b.Bounded head tail latest)
    (hb : b.flushDefinitions limit = some b') :
    b'.Bounded head tail latest ∧ ((∀ n ∈ limit, latest ≤ n) → b'.definitions = []) := by
  simp only [Builder.flushDefinitions, Option.bind_eq_bind, Option.bind_eq_some_iff,
    Option.some.injEq] at hb
  obtain ⟨⟨definitions, ranges, cursor⟩, htake, rfl⟩ := hb
  rw [h.source_eq] at htake
  obtain ⟨hcursor, hsub, hnil⟩ := takeDefinitions_spec h.seam
    (fun range hrange => (h.definitions range hrange).1) h.cursor htake
  have taken : ({ b with definitions := ranges, cursor } : Builder).Bounded head tail latest :=
    ⟨h.seam, h.source_eq, hcursor, h.leaf,
      fun range hrange => h.definitions range (hsub range hrange)⟩
  have none_waits (hlimit : ∀ n ∈ limit, latest ≤ n) : ranges = [] := by
    refine hnil fun range hrange => ?_
    have := (h.definitions range hrange).2
    cases limit with
    | none => rfl
    | some n =>
      have := hlimit n rfl
      exact decide_eq_true (by omega)
  split
  · exact ⟨taken, none_waits⟩
  · exact ⟨taken.pushBlock _, fun hlimit => (definitions_pushBlock _ _).trans (none_waits hlimit)⟩

/-- A block that begins where no definition waits any more leaves none waiting. -/
theorem beginBlock {start : Nat} {lines : Option (List Line)} (h : b.Bounded head tail latest)
    (hstart : start < byteLength head) (hb : b.beginBlock start = some (lines, b')) :
    b'.Bounded head tail latest ∧ (latest ≤ start → b'.definitions = []) := by
  simp only [Builder.beginBlock, Option.bind_eq_bind, Option.bind_eq_some_iff, Option.some.injEq,
    Prod.mk.injEq] at hb
  obtain ⟨b₁, hclose, b₂, hflush, lineStart, hlineStart, gap, -, -, rfl⟩ := hb
  obtain ⟨h₂, hnone⟩ := (h.closeImplicit hclose).flushDefinitions hflush
  obtain ⟨before, -, hle⟩ := Option.map_eq_some_iff.1 hlineStart
  have hcursor := h₂.cursor
  exact ⟨h₂.moveTo (by omega), fun hlatest => hnone fun n hn => by cases hn; exact hlatest⟩

theorem beginLeaf {kind : LeafKind} {start : Nat} (h : b.Bounded head tail latest)
    (hstart : start < byteLength head) (hb : b.beginLeaf kind start = some b') :
    b'.Bounded head tail latest := by
  simp only [Builder.beginLeaf, Option.bind_eq_bind, Option.bind_eq_some_iff,
    Option.some.injEq] at hb
  obtain ⟨⟨lines, b₁⟩, hbegin, rfl⟩ := hb
  exact (h.beginBlock hstart hbegin).1.openLeaf hstart kind lines

theorem enterParagraph (h : b.Bounded head tail latest) (hrange : range.Inside (byteLength head))
    (hb : b.enterParagraph range = some b') : b'.Bounded head tail latest := by
  simp only [Builder.enterParagraph, Option.bind_eq_bind, Option.bind_eq_some_iff,
    Option.some.injEq] at hb
  obtain ⟨⟨lines, b₁⟩, hbegin, rfl⟩ := hb
  exact (h.beginBlock hrange.start hbegin).1.markLoose.openLeaf hrange.start _ lines

theorem addRule (h : b.Bounded head tail latest) (hrange : range.Inside (byteLength head))
    (hb : b.addRule range = some b') : b'.Bounded head tail latest := by
  simp only [Builder.addRule, Option.bind_eq_bind, Option.bind_eq_some_iff, Option.some.injEq] at hb
  obtain ⟨⟨lines, b₁⟩, hbegin, last, hlast, content, -, rfl⟩ := hb
  have h₁ := (h.beginBlock hrange.start hbegin).1
  exact (h₁.pushBlock _).moveTo (h₁.stop_le hrange hlast)

theorem closeHeading (h : b.Bounded head tail latest) (hrange : range.Inside (byteLength head))
    (hb : b.closeHeading range = some b') : b'.Bounded head tail latest := by
  unfold Builder.closeHeading at hb
  split at hb
  · simp only [Option.bind_eq_bind, Option.bind_eq_some_iff, Option.some.injEq] at hb
    obtain ⟨last, hlast, rfl⟩ := hb
    exact h.close hrange hlast _
  · cases hb
    exact h.dropLeaf

theorem closeCode (h : b.Bounded head tail latest) (hrange : range.Inside (byteLength head))
    (hb : b.closeCode range = some b') : b'.Bounded head tail latest := by
  unfold Builder.closeCode at hb
  split at hb
  · obtain ⟨last, hlast, hb⟩ := Option.bind_eq_some_iff.1 hb
    split at hb <;> obtain ⟨fence, -, hb⟩ := Option.bind_eq_some_iff.1 hb <;> cases hb <;>
      exact h.close hrange hlast _
  · cases hb
    exact h.dropLeaf

theorem closeHtml (h : b.Bounded head tail latest) (hrange : range.Inside (byteLength head))
    (hb : b.closeHtml range = some b') : b'.Bounded head tail latest := by
  unfold Builder.closeHtml at hb
  split at hb
  · simp only [Option.bind_eq_bind, Option.bind_eq_some_iff, Option.some.injEq] at hb
    obtain ⟨last, hlast, rfl⟩ := hb
    rw [source_pushBlock] at hlast
    exact h.close hrange hlast _
  · cases hb
    exact h.dropLeaf

/-! ### Inlines -/

theorem push (h : b.Bounded head tail latest) (inline : Inline) :
    (b.mapLeaf (·.push inline)).Bounded head tail latest :=
  h.mapLeaf fun leaf hleaf => by
    obtain ⟨root, frames, hpush⟩ := leaf.exists_push inline
    rw [hpush]
    exact hleaf

theorem mapKind (h : b.Bounded head tail latest) (f : Leaf → LeafKind) :
    (b.mapLeaf fun leaf => { leaf with kind := f leaf }).Bounded head tail latest :=
  h.mapLeaf fun _ hleaf => hleaf

theorem leaveFrame (h : b.Bounded head tail latest) : b.leaveFrame.Bounded head tail latest := by
  unfold Builder.leaveFrame
  split
  · exact h.withContainers _ _ _
  · refine h.mapLeaf fun leaf hleaf => ?_
    obtain ⟨root, frames, hclose⟩ := leaf.exists_closeFrame
    rw [hclose]
    exact hleaf

theorem ensureLeaf (h : b.Bounded head tail latest) (hrange : range.Inside (byteLength head))
    (hb : b.ensureLeaf range = some b') : b'.Bounded head tail latest := by
  have extend (b₁ : Builder) (h₁ : b₁.Bounded head tail latest) : (b₁.mapLeaf fun leaf =>
      { leaf with stop := max leaf.stop range.stop }).Bounded head tail latest :=
    h₁.mapLeaf fun leaf hleaf => ⟨hleaf.start, Nat.max_le.2 ⟨hleaf.stop, hrange.stop⟩⟩
  simp only [Builder.ensureLeaf, Option.bind_eq_bind] at hb
  split at hb
  · obtain ⟨b₁, hbegin, hb⟩ := Option.bind_eq_some_iff.1 hb
    cases hb
    exact extend b₁ (h.beginLeaf hrange.start hbegin)
  · cases hb
    exact extend b h

theorem addInline {inline : Inline} (h : b.Bounded head tail latest)
    (hrange : range.Inside (byteLength head)) (hb : b.addInline inline range = some b') :
    b'.Bounded head tail latest := by
  simp only [Builder.addInline, Option.bind_eq_bind, Option.bind_eq_some_iff,
    Option.some.injEq] at hb
  obtain ⟨b₁, hleaf, rfl⟩ := hb
  exact (h.ensureLeaf hrange hleaf).push inline

theorem addText {content : String} (h : b.Bounded head tail latest)
    (hrange : range.Inside (byteLength head)) (hb : b.addText content range = some b') :
    b'.Bounded head tail latest := by
  unfold Builder.addText at hb
  split at hb
  · cases hb
    exact h.mapKind _
  · cases hb
    exact h.mapKind _
  · simp only [Option.bind_eq_bind, Option.bind_eq_some_iff] at hb
    obtain ⟨raw, -, before, -, hadd⟩ := hb
    exact h.addInline hrange hadd

theorem addHtml {content : String} (h : b.Bounded head tail latest)
    (hrange : range.Inside (byteLength head)) (hb : b.addHtml content range = some b') :
    b'.Bounded head tail latest := by
  unfold Builder.addHtml at hb
  split at hb
  · cases hb
    exact h.mapKind _
  · exact h.addInline hrange hb

theorem addBreak {hard : Bool} (h : b.Bounded head tail latest)
    (hrange : range.Inside (byteLength head)) (hb : b.addBreak hard range = some b') :
    b'.Bounded head tail latest := by
  simp only [Builder.addBreak, Option.bind_eq_bind, Option.bind_eq_some_iff] at hb
  obtain ⟨raw, -, hadd⟩ := hb
  exact h.addInline hrange hadd

theorem enterFrame {kind : FrameKind} (h : b.Bounded head tail latest)
    (hrange : range.Inside (byteLength head)) (hb : b.enterFrame kind range = some b') :
    b'.Bounded head tail latest := by
  simp only [Builder.enterFrame, Option.bind_eq_bind, Option.bind_eq_some_iff] at hb
  obtain ⟨b₁, hleaf, hb⟩ := hb
  have h₁ := h.ensureLeaf hrange hleaf
  split at hb <;> cases hb
  · exact h₁.withContainers _ _ _
  · exact h₁.mapLeaf (f := (·.openFrame kind)) fun _ hleaf => hleaf

/-! ### Containers -/

theorem enterQuote (h : b.Bounded head tail latest) (hrange : range.Inside (byteLength head))
    (hb : b.enterQuote range = some b') : b'.Bounded head tail latest := by
  unfold Builder.enterQuote at hb
  split at hb
  · simp only [Option.bind_eq_bind, Option.bind_eq_some_iff, Option.some.injEq] at hb
    obtain ⟨⟨lines, b₁⟩, hbegin, rfl⟩ := hb
    exact (h.beginBlock hrange.start hbegin).1.withContainers _ _ _
  · cases hb
    exact h.withContainers _ _ _

theorem enterList {first : Option Nat} (h : b.Bounded head tail latest)
    (hrange : range.Inside (byteLength head)) (hb : b.enterList first range = some b') :
    b'.Bounded head tail latest := by
  unfold Builder.enterList at hb
  split at hb
  · simp only [Option.bind_eq_bind, Option.bind_eq_some_iff, Option.some.injEq] at hb
    obtain ⟨⟨lines, b₁⟩, hbegin, rest, -, rfl⟩ := hb
    exact (h.beginBlock hrange.start hbegin).1.withContainers _ _ _
  · cases hb
    exact h.withContainers _ _ _

theorem enterItem (h : b.Bounded head tail latest) (hrange : range.Inside (byteLength head))
    (hb : b.enterItem range = some b') : b'.Bounded head tail latest := by
  unfold Builder.enterItem at hb
  split at hb
  · cases hb
    exact h.withContainers _ _ _
  · simp only [Option.bind_eq_bind, Option.bind_eq_some_iff, Option.some.injEq] at hb
    obtain ⟨b₁, hclose, rfl⟩ := hb
    exact ((h.closeImplicit hclose).moveTo (Nat.le_of_lt hrange.start)).withContainers _ _ _

theorem enter {tag : Tag} (h : b.Bounded head tail latest)
    (hrange : range.Inside (byteLength head)) (hb : b.enter tag range = some b') :
    b'.Bounded head tail latest := by
  cases tag with
  | paragraph => exact h.enterParagraph hrange hb
  | heading _ | codeBlock _ | htmlBlock => exact h.beginLeaf hrange.start hb
  | blockQuote => exact h.enterQuote hrange hb
  | list first => exact h.enterList hrange hb
  | item => exact h.enterItem hrange hb
  | emphasis | strong | strikethrough =>
    simp only [Builder.enter, Option.bind_eq_bind, Option.bind_eq_some_iff] at hb
    obtain ⟨rest, -, hb⟩ := hb
    exact h.enterFrame hrange hb
  | link _ _ _ | image _ _ _ => exact h.enterFrame hrange hb
  | other =>
    cases hb
    exact h

theorem leaveQuote (h : b.Bounded head tail latest) (hrange : range.Inside (byteLength head))
    (hb : b.leaveQuote range = some b') : b'.Bounded head tail latest := by
  simp only [Builder.leaveQuote, Option.bind_eq_bind, Option.bind_eq_some_iff] at hb
  obtain ⟨b₁, hclose, b₂, hflush, last, hlast, trailing, -, hb⟩ := hb
  have h₂ := ((h.closeImplicit hclose).flushDefinitions hflush).1
  split at hb
  · cases hb
    exact h₂
  next container rest hcons =>
    have popped := h₂.withContainers rest b₂.skippedContainers b₂.skippedFrames
    split at hb
    · simp only [Option.bind_eq_some_iff, Option.some.injEq] at hb
      obtain ⟨lineStart, -, text, -, rfl⟩ := hb
      refine (popped.pushBlock _).moveTo (Nat.max_le.2 ⟨?_, h₂.stop_le hrange hlast⟩)
      exact (popped.pushBlock _).cursor
    · cases hb
      exact popped

theorem leaveItem (h : b.Bounded head tail latest) (hb : b.leaveItem range = some b') :
    b'.Bounded head tail latest := by
  simp only [Builder.leaveItem, Option.bind_eq_bind, Option.bind_eq_some_iff] at hb
  obtain ⟨b₁, hclose, b₂, hflush, hb⟩ := hb
  have h₂ := ((h.closeImplicit hclose).flushDefinitions hflush).1
  split at hb <;> cases hb
  · exact h₂
  · exact h₂.withContainers _ _ _
  · exact h₂.withContainers _ _ _

theorem leaveList (h : b.Bounded head tail latest) : b.leaveList.Bounded head tail latest := by
  unfold Builder.leaveList
  split
  · exact h
  · exact (h.withContainers _ _ _).pushBlock _
  · exact h.withContainers _ _ _

theorem leave {kind : TagKind} (h : b.Bounded head tail latest)
    (hrange : range.Inside (byteLength head)) (hb : b.leave kind range = some b') :
    b'.Bounded head tail latest := by
  unfold Builder.leave at hb
  split at hb
  · cases hb
    exact h.withContainers _ _ _
  · cases kind with
    | paragraph => exact h.closeParagraph hrange.stop hb
    | heading => exact h.closeHeading hrange hb
    | codeBlock => exact h.closeCode hrange hb
    | htmlBlock => exact h.closeHtml hrange hb
    | blockQuote => exact h.leaveQuote hrange hb
    | item => exact h.leaveItem hb
    | list =>
      cases hb
      exact h.leaveList
    | emphasis | strong | strikethrough | link | image =>
      cases hb
      exact h.leaveFrame
    | other =>
      cases hb
      exact h

/-! ### Runs -/

theorem step {e : RangedEvent} (h : b.Bounded head tail latest)
    (hrange : e.range.Inside (byteLength head)) (hb : b.step e = some b') :
    b'.Bounded head tail latest := by
  unfold Builder.step at hb
  split at hb
  · exact h.enter hrange hb
  · exact h.leave hrange hb
  · exact h.addText hrange hb
  · exact h.addInline hrange hb
  · exact h.addHtml hrange hb
  · exact h.addInline hrange hb
  · exact h.addBreak hrange hb
  · exact h.addBreak hrange hb
  · exact h.addRule hrange hb
  · cases hb
    exact h

/-- Events before the end of the line, balanced or not, keep a builder before it. -/
theorem run {events : List RangedEvent} (h : b.Bounded head tail latest)
    (hevents : ∀ e ∈ events, e.range.Inside (byteLength head)) (hb : b.run events = some b') :
    b'.Bounded head tail latest := by
  induction events generalizing b with
  | nil =>
    cases hb
    exact h
  | cons e rest ih =>
    obtain ⟨he, hrest⟩ := List.forall_mem_cons.1 hevents
    obtain ⟨b₁, hstep, hb⟩ := EventForest.exists_of_run_event hb
    exact ih (h.step he hstep) hrest hb

end Bounded

end Builder

end MarkdownSpans
