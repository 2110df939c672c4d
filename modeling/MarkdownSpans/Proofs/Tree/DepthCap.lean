import MarkdownSpans.Proofs.Tree.LeafCap
import MarkdownSpans.Proofs.Tree.Moves

/-!
# The cap on nesting

`Builder.Capped d k` says that a builder with `k` open containers is within the limit `d`: a
container holds blocks that are nested no deeper than the limit leaves at the level of the
container, which is the number of containers outside of it. Whatever a builder does keeps it within
its limit. Items are entered at any level, but one that is left becomes part of a document only
inside of a list, and a list is entered only where its items fit. Hence a document is nested no
deeper than the limit (`Document.within_of_ofEvents?`).
-/

namespace MarkdownSpans

/-! ### Containers -/

/-- What an open container of a kind is sure of at a level. -/
def ContainerKind.Capped (d level : Nat) : ContainerKind → Prop
  | .document | .item => True
  | .quote _ => level ≤ d
  | .list _ items =>
    level < d ∧ ∀ item ∈ items, ∀ b ∈ item.children, b.Within d (d - (level + 1))

/-- Open containers, innermost first, are capped, each at the number of those outside of it. -/
def ContainersCapped (d : Nat) : List Container → Prop
  | [] => True
  | c :: rest =>
    (∀ b ∈ c.reversed, b.Within d (d - rest.length)) ∧ c.kind.Capped d rest.length ∧
      ContainersCapped d rest

theorem ContainersCapped.within {d : Nat} {cs : List Container} (h : ContainersCapped d cs) :
    ∀ c ∈ cs, ∀ b ∈ c.reversed, b.Within d d := by
  induction cs with
  | nil => exact List.forall_mem_nil _
  | cons c rest ih =>
    obtain ⟨hblocks, -, hrest⟩ := h
    refine List.forall_mem_cons.2 ⟨fun b hb => ?_, ih hrest⟩
    exact (hblocks b hb).mono (Nat.sub_le d rest.length)

theorem Block.Bare.within {m n : Nat} {block : Block} (h : block.Bare) : block.Within m n := by
  cases h with
  | codeBlock lines fence trivia => exact .codeBlock lines fence trivia
  | htmlBlock lines trivia => exact .htmlBlock lines trivia
  | thematicBreak content newline trivia => exact .thematicBreak content newline trivia
  | linkDefinitionGroup definitions trivia => exact .linkDefinitionGroup definitions trivia
  | emptyBlock trivia => exact .emptyBlock trivia

/-- Whatever is done to a leaf, it fits the limit. -/
theorem Leaf.Capped.move {d : Nat} {leaf leaf' : Leaf} (h : leaf.Capped d)
    (hmove : leaf.Move d leaf') : leaf'.Capped d := by
  cases hmove with
  | extend kind stop => exact ⟨h.root, h.frames⟩
  | push hinline => exact h.push (hinline.mono (Nat.zero_le _))
  | openFrame kind hfits => exact h.openFrame kind hfits
  | closeFrame => exact h.closeFrame

namespace Builder

/-- The state of a builder with `k` open containers fits the limit `d`. -/
structure Capped (d k : Nat) (b : Builder) : Prop where
  maxDepth : b.options.maxDepth = d
  length : b.containers.length = k
  containers : ContainersCapped d b.containers
  leaf : ∀ leaf ∈ b.leaf, leaf.Capped d

theorem capped_start (source : List Char) (definitions : List ByteRange) (options : BuildOptions) :
    (start source definitions options).Capped options.maxDepth 1 where
  maxDepth := rfl
  length := rfl
  containers := ⟨List.forall_mem_nil _, trivial, trivial⟩
  leaf := fun _ hleaf => nomatch hleaf

namespace Capped

variable {d k : Nat} {b b' : Builder}

/-- A leaf that fits may take the place of another. -/
theorem withLeaf {leaf? : Option Leaf} (h : b.Capped d k) (hleaf : ∀ leaf ∈ leaf?, leaf.Capped d) :
    ({ b with leaf := leaf? } : Builder).Capped d k :=
  ⟨h.maxDepth, h.length, h.containers, hleaf⟩

theorem dropLeaf (h : b.Capped d k) : ({ b with leaf := none } : Builder).Capped d k :=
  h.withLeaf fun _ hleaf => nomatch hleaf

theorem pushBlock {block : Block} (h : b.Capped d k) (hblock : block.Within d (d + 1 - k)) :
    (b.pushBlock block).Capped d k := by
  obtain ⟨hmax, hlength, hcontainers, hleaf⟩ := h
  unfold Builder.pushBlock
  split
  -- Even the outermost container was left, so the block is dropped.
  · exact ⟨hmax, hlength, hcontainers, hleaf⟩
  next c rest hcons =>
    rw [hcons] at hlength hcontainers
    obtain ⟨hblocks, hkind, hrest⟩ := hcontainers
    have inside : block.Within d (d - rest.length) := by
      rw [← hlength, List.length_cons, Nat.add_sub_add_right] at hblock
      exact hblock
    exact ⟨hmax, hlength, ⟨List.forall_mem_cons.2 ⟨inside, hblocks⟩, hkind, hrest⟩, hleaf⟩

/-- Without its innermost container a builder fits the limit, and what was in the container fits
into the next. -/
theorem pop {c : Container} {rest : List Container} (h : b.Capped d k)
    (hcons : b.containers = c :: rest) :
    ({ b with containers := rest } : Builder).Capped d rest.length ∧
      (∀ block ∈ c.reversed, block.Within d (d - rest.length)) ∧ c.kind.Capped d rest.length := by
  obtain ⟨hmax, hlength, hcontainers, hleaf⟩ := h
  rw [hcons] at hcontainers
  exact ⟨⟨hmax, rfl, hcontainers.2.2, hleaf⟩, hcontainers.1, hcontainers.2.1⟩

theorem markLoose (h : b.Capped d k) : b.markLoose.Capped d k := by
  obtain ⟨hmax, hlength, hcontainers, hleaf⟩ := h
  unfold Builder.markLoose
  split
  next hcons =>
    rw [hcons] at hlength hcontainers
    obtain ⟨hblocks, hkind, hlist⟩ := hcontainers
    exact ⟨hmax, hlength, ⟨hblocks, hkind, hlist⟩, hleaf⟩
  · exact ⟨hmax, hlength, hcontainers, hleaf⟩

/-- A container that is opened has room at the level of the next. -/
theorem capped_of_hasRoom {kind : ContainerKind} (h : b.Capped d k) (hroom : b.HasRoom kind) :
    kind.Capped d k := by
  have hmax := h.maxDepth
  have hlength := h.length
  unfold HasRoom Builder.depth at hroom
  cases kind with
  | document | item => trivial
  | quote start =>
    show k ≤ d
    omega
  | list style items =>
    obtain ⟨rfl, hfits⟩ := hroom
    exact ⟨by omega, List.forall_mem_nil _⟩

/-- Whatever a builder does, it stays within its limit. -/
theorem move (h : b.Capped d k) (hmove : b.Move b') : ∃ k', b'.Capped d k' := by
  cases hmove with
  | note definitions cursor skippedContainers skippedFrames =>
    exact ⟨k, h.maxDepth, h.length, h.containers, h.leaf⟩
  | pushBlock hbare => exact ⟨k, h.pushBlock hbare.within⟩
  | openLeaf kind start lines =>
    refine ⟨k, h.withLeaf fun leaf hleaf => ?_⟩
    cases hleaf
    exact ⟨List.forall_mem_nil _, trivial⟩
  | mapLeaf hmoves =>
    refine ⟨k, h.withLeaf fun leaf hleaf => ?_⟩
    obtain ⟨before, hbefore, rfl⟩ := Option.map_eq_some_iff.1 hleaf
    have moved := hmoves before hbefore
    rw [h.maxDepth] at moved
    exact (h.leaf before hbefore).move moved
  | dropLeaf => exact ⟨k, h.dropLeaf⟩
  | @endParagraph leaf hleaf newline trivia =>
    refine ⟨k, h.dropLeaf.pushBlock (.paragraph trivia fun i hi => ?_)⟩
    rcases List.mem_append.1 hi with hi | hi
    · exact (h.leaf leaf hleaf).within_inlines i hi
    · unfold paragraphEnding at hi
      split at hi
      · cases hi
      · rw [List.mem_singleton.1 hi]
        exact .lineBreak _ _
  | @endHeading leaf hleaf level newline trivia =>
    have content := (h.leaf leaf hleaf).within_inlines
    exact ⟨k, h.dropLeaf.pushBlock (.heading level newline trivia content)⟩
  | pushContainer hroom lines =>
    have inside := h.capped_of_hasRoom hroom
    obtain ⟨hmax, rfl, hcontainers, hleaf⟩ := h
    exact ⟨_, hmax, rfl, ⟨List.forall_mem_nil _, inside, hcontainers⟩, hleaf⟩
  | markLoose => exact ⟨k, h.markLoose⟩
  | dropContainer hcons => exact ⟨_, (h.pop hcons).1⟩
  | @endQuote c rest hcons start hquote blocks hblocks lines trivia =>
    obtain ⟨hrest, hinside, hkind⟩ := h.pop hcons
    rw [hquote] at hkind
    have hlevel : rest.length ≤ d := hkind
    have content : ∀ block ∈ blocks.reverse, block.Within d (d - rest.length) := by
      intro block hblock
      rw [List.mem_reverse] at hblock
      rcases hblocks with rfl | ⟨after, rfl⟩
      · exact hinside block hblock
      · have retouched (block : Block) (t : Trivia) (h : block.Within d (d - rest.length)) :=
          h.withTrivia t
        exact forall_mem_setLinesAfter retouched after hinside block hblock
    have quoted := Block.Within.quote lines trivia content
    exact ⟨_, hrest.pushBlock (quoted.mono (by omega))⟩
  | @endItem c outer rest hcons style items hlist =>
    -- The item joins the list around it, at a level that has room for items.
    obtain ⟨⟨hmax, hlength, ⟨houter, hkind, hcontainers⟩, hleaf⟩, hblocks, -⟩ := h.pop hcons
    rw [hlist] at hkind
    obtain ⟨hfits, hitems⟩ := hkind
    have item : ∀ block ∈ (ListItem.mk c.reversed.reverse .tracked).children,
        block.Within d (d - (rest.length + 1)) :=
      fun block hblock => hblocks block (List.mem_reverse.1 hblock)
    have list := List.forall_mem_cons.2 ⟨item, hitems⟩
    exact ⟨_, hmax, hlength, ⟨houter, ⟨hfits, list⟩, hcontainers⟩, hleaf⟩
  | @endList c rest hcons style items hlist trivia =>
    obtain ⟨hrest, -, hkind⟩ := h.pop hcons
    rw [hlist] at hkind
    obtain ⟨hfits, hitems⟩ := hkind
    have listed := Block.Within.list style trivia
      fun item hitem => hitems item (List.mem_reverse.1 hitem)
    exact ⟨_, hrest.pushBlock (listed.mono (by omega))⟩

theorem moves (h : b.Capped d k) (hmoves : Moves b b') : ∃ k', b'.Capped d k' := by
  induction hmoves with
  | refl => exact ⟨k, h⟩
  | tail _ hmove ih =>
    obtain ⟨k₁, h₁⟩ := ih
    exact h₁.move hmove

/-- Events, whether or not they are balanced, keep a builder within its limit. -/
theorem run {events : List RangedEvent} (h : b.Capped d k) (hb : b.run events = some b') :
    ∃ k', b'.Capped d k' :=
  h.moves (moves_run hb)

/-- What is still open at the end is dissolved, so every block is at the top level. -/
theorem finish {document : Document} (h : b.Capped d k) (hb : b.finish = some document) :
    ∀ block ∈ document.blocks, block.Within d d := by
  obtain ⟨b₁, hmoves, hblocks⟩ := moves_finish hb
  obtain ⟨k₁, h₁⟩ := h.moves hmoves
  have retouched (block : Block) (trivia : Trivia) (h : block.Within d d) := h.withTrivia trivia
  exact hblocks _ retouched (fun _ hbare => hbare.within) h₁.containers.within

end Capped

end Builder

/-- **The documents of a builder are nested no deeper than its limit.** -/
theorem Document.within_of_ofEvents? {source : String} {definitions : List ByteRange}
    {options : ParseOptions} {events : List RangedEvent} {registry : EmojiRegistry}
    {document : Document}
    (h : ofEvents? source definitions options events registry = some document) :
    ∀ block ∈ document.blocks, block.Within options.maxDepth options.maxDepth := by
  unfold ofEvents? at h
  rw [Option.bind_eq_bind, Option.bind_eq_some_iff] at h
  obtain ⟨b, hrun, hfinish⟩ := h
  obtain ⟨k, hb⟩ :=
    (Builder.capped_start source.toList definitions { options with registry }).run hrun
  exact hb.finish hfinish

end MarkdownSpans
