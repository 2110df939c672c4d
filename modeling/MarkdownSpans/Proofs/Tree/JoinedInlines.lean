import MarkdownSpans.Proofs.Document.InlineLists
import MarkdownSpans.Proofs.Tree.FrameStack
import MarkdownSpans.Proofs.Tree.Moves

/-!
# The inlines of built documents

Literals are joined wherever inlines are put one after another: in the root of a leaf and in its
frames, and where a frame that is left joins what it becomes to the frame around it. So no two
literals of a document stand next to each other, whatever the events, while the frames of an open
leaf stay in the order of a stack (`Document.inlines_built`).
-/

namespace MarkdownSpans

/-! ### Lists of inlines -/

namespace Inline

theorem apart_pushInline {reversed : List Inline} (h : Apart reversed) (inline : Inline) :
    Apart (pushInline inline reversed) := by
  unfold pushInline
  split
  next previous rest =>
    split
    next next =>
      -- A literal in place of a literal is next to the same inline.
      obtain ⟨hhead, hrest⟩ := List.isChain_cons.1 h
      exact List.isChain_cons.2 ⟨hhead, hrest⟩
    next hinline =>
      refine List.isChain_cons_cons.2 ⟨?_, h⟩
      rintro ⟨hliteral, -⟩
      cases inline with
      | literal content => exact hinline content rfl
      | _ => cases hliteral
  next hhead =>
    refine List.isChain_cons.2 ⟨?_, h⟩
    rintro i hi ⟨-, hliteral⟩
    cases reversed with
    | nil => cases hi
    | cons first rest =>
      cases hi
      cases i with
      | literal content => exact hhead content rest rfl
      | _ => cases hliteral

theorem ListJoined.pushInline {reversed : List Inline} {inline : Inline} (h : ListJoined reversed)
    (hinline : inline.Joined) : ListJoined (pushInline inline reversed) := by
  refine ⟨apart_pushInline h.apart inline, ?_⟩
  unfold MarkdownSpans.pushInline
  split
  · split
    · refine List.forall_mem_cons.2 ⟨joined_of_inlineLists rfl, ?_⟩
      exact (List.forall_mem_cons.1 h.joined).2
    · exact List.forall_mem_cons.2 ⟨hinline, h.joined⟩
  · exact List.forall_mem_cons.2 ⟨hinline, h.joined⟩

theorem ListJoined.pushInlines {inlines reversed : List Inline} (h : ListJoined reversed)
    (hinlines : ∀ i ∈ inlines, i.Joined) : ListJoined (pushInlines inlines reversed) := by
  induction inlines generalizing reversed with
  | nil => exact h
  | cons inline rest ih =>
    rw [List.forall_mem_cons] at hinlines
    exact ih (h.pushInline hinlines.1) hinlines.2

/-- The inline around a list of inlines. -/
theorem ListJoined.around {children : List Inline} {i : Inline} (h : ListJoined children)
    (hi : i.inlineLists = children :: innerLists children) : i.Joined := by
  rw [Joined, hi]
  exact listJoined_iff.1 h

/-- Inlines that no inlines stand in. -/
theorem joined_of_within {i : Inline} (h : i.Within 0) : i.Joined := by
  cases h <;> exact joined_of_inlineLists rfl

end Inline

open Inline (ListJoined)

/-- The tildes around a delimiter are not joined to what is in it. -/
theorem FrameKind.joined_close {children : List Inline} (h : ListJoined children)
    (kind : FrameKind) : ∀ i ∈ kind.close children, i.Joined := by
  cases kind with
  | emphasis delimiter count =>
    exact List.forall_mem_singleton.2 (h.around rfl)
  | strikethrough run =>
    by_cases hrun : run = 2
    · rw [close, if_pos hrun]
      exact List.forall_mem_singleton.2 (h.around rfl)
    · rw [close, if_neg hrun]
      refine List.forall_mem_cons.2 ⟨h.around rfl, ?_⟩
      exact List.forall_mem_singleton.2 (Inline.joined_of_inlineLists rfl)
  | link type url title isImage =>
    cases type with
    | autolink | email => exact List.forall_mem_singleton.2 (Inline.joined_of_inlineLists rfl)
    | inline | reference | collapsed | shortcut =>
      exact List.forall_mem_singleton.2 (h.around rfl)

/-! ### Leaves -/

/-- No two literals stand next to each other in an open leaf. -/
structure Leaf.Joined (leaf : Leaf) : Prop where
  root : ListJoined leaf.root
  frames : ∀ frame ∈ leaf.frames, ListJoined frame.reversed

namespace Leaf.Joined

variable {leaf leaf' : Leaf}

theorem pushAll {is : List Inline} (h : leaf.Joined) (his : ∀ i ∈ is, i.Joined) :
    (leaf.pushAll is).Joined := by
  obtain ⟨hroot, hframes⟩ := h
  cases hcase : leaf.frames with
  | nil =>
    rw [pushAll_root is hcase]
    exact ⟨hroot.pushInlines his, hframes⟩
  | cons frame rest =>
    rw [pushAll_frame is hcase]
    rw [hcase, List.forall_mem_cons] at hframes
    exact ⟨hroot, List.forall_mem_cons.2 ⟨hframes.1.pushInlines his, hframes.2⟩⟩

theorem closeFrame (h : leaf.Joined) : leaf.closeFrame.Joined := by
  unfold Leaf.closeFrame
  split
  · exact h
  next frame rest hcons =>
    obtain ⟨hroot, hframes⟩ := h
    rw [hcons, List.forall_mem_cons] at hframes
    have outer : ({ leaf with frames := rest } : Leaf).Joined := ⟨hroot, hframes.2⟩
    exact outer.pushAll (frame.kind.joined_close hframes.1.reverse)

/-- Whatever is done to a leaf, literals are joined in it. -/
theorem move {limit : Nat} (h : leaf.Joined) (hmove : leaf.Move limit leaf') : leaf'.Joined := by
  cases hmove with
  | extend kind stop => exact ⟨h.root, h.frames⟩
  | @push inline hinline =>
    exact h.pushAll (List.forall_mem_singleton.2 (Inline.joined_of_within hinline))
  | openFrame kind _ =>
    exact ⟨h.root, List.forall_mem_cons.2 ⟨Inline.listJoined_nil, h.frames⟩⟩
  | closeFrame => exact h.closeFrame

/-- Literals are joined in the inlines of a leaf whose frames are folded. -/
theorem inlines (h : leaf.Joined) : ListJoined leaf.inlines := by
  have folded (frames : List Frame) (added : List Inline)
      (hframes : ∀ frame ∈ frames, ListJoined frame.reversed) (hadded : ∀ i ∈ added, i.Joined) :
      ListJoined (foldFrames leaf.root added frames) := by
    induction frames generalizing added with
    | nil => exact (h.root.pushInlines hadded).reverse
    | cons frame rest ih =>
      rw [List.forall_mem_cons] at hframes
      have filled := hframes.1.pushInlines hadded
      exact ih _ hframes.2 (frame.kind.joined_close filled.reverse)
  exact folded leaf.frames [] h.frames (List.forall_mem_nil _)

/-- The line break at the end of a paragraph is no literal. -/
theorem paragraph (h : leaf.Joined) (newline : Newline) :
    ListJoined (leaf.inlines ++ Builder.paragraphEnding newline) := by
  unfold Builder.paragraphEnding
  split
  · rw [List.append_nil]
    exact h.inlines
  · refine ⟨List.isChain_append.2 ⟨h.inlines.apart, .singleton _, ?_⟩, ?_⟩
    · rintro i - j hj ⟨-, hliteral⟩
      cases hj
      cases hliteral
    · rw [List.forall_mem_append]
      exact ⟨h.inlines.joined, List.forall_mem_singleton.2 (Inline.joined_of_inlineLists rfl)⟩

end Leaf.Joined

/-! ### Builders -/

theorem Block.Bare.joined {block : Block} (h : block.Bare) : block.Joined := by
  intro list hlist
  cases h <;> cases hlist

/-- No two literals stand next to each other in the blocks of an open container. -/
structure Container.Joined (c : Container) : Prop where
  blocks : ∀ block ∈ c.reversed, block.Joined
  items : ∀ item ∈ c.kind.items, ∀ block ∈ item.children, block.Joined

namespace Builder

/-- No two literals stand next to each other in what is built so far. -/
structure Joined (b : Builder) : Prop where
  containers : ∀ c ∈ b.containers, c.Joined
  leaf : ∀ leaf ∈ b.leaf, leaf.Joined

namespace Joined

variable {b b' : Builder}

theorem pushBlock {block : Block} (h : b.Joined) (hblock : block.Joined) :
    (b.pushBlock block).Joined := by
  obtain ⟨hcontainers, hleaf⟩ := h
  unfold Builder.pushBlock
  split
  · exact ⟨hcontainers, hleaf⟩
  next c rest hcons =>
    rw [hcons, List.forall_mem_cons] at hcontainers
    obtain ⟨⟨hblocks, hitems⟩, hrest⟩ := hcontainers
    have filled : Container.Joined { c with reversed := block :: c.reversed } :=
      ⟨List.forall_mem_cons.2 ⟨hblock, hblocks⟩, hitems⟩
    exact ⟨List.forall_mem_cons.2 ⟨filled, hrest⟩, hleaf⟩

theorem dropLeaf (h : b.Joined) : ({ b with leaf := none } : Builder).Joined :=
  ⟨h.containers, fun _ hleaf => nomatch hleaf⟩

/-- A container is taken off the open ones. -/
theorem pop {c : Container} {rest : List Container} (h : b.Joined)
    (hcons : b.containers = c :: rest) :
    c.Joined ∧ ({ b with containers := rest } : Builder).Joined := by
  obtain ⟨hcontainers, hleaf⟩ := h
  rw [hcons, List.forall_mem_cons] at hcontainers
  exact ⟨hcontainers.1, hcontainers.2, hleaf⟩

theorem markLoose (h : b.Joined) : b.markLoose.Joined := by
  unfold Builder.markLoose
  split
  next hcons =>
    obtain ⟨hcontainers, hleaf⟩ := h
    rw [hcons, List.forall_mem_cons, List.forall_mem_cons] at hcontainers
    obtain ⟨hitem, ⟨hblocks, hitems⟩, hrest⟩ := hcontainers
    exact ⟨List.forall_mem_cons.2 ⟨hitem, List.forall_mem_cons.2 ⟨⟨hblocks, hitems⟩, hrest⟩⟩, hleaf⟩
  · exact h

/-- Whatever a builder does, literals are joined. -/
theorem move (h : b.Joined) (hmove : b.Move b') : b'.Joined := by
  cases hmove with
  | note definitions cursor skippedContainers skippedFrames => exact ⟨h.containers, h.leaf⟩
  | pushBlock hbare => exact h.pushBlock hbare.joined
  | openLeaf kind start lines =>
    refine ⟨h.containers, fun leaf hleaf => ?_⟩
    cases hleaf
    exact ⟨Inline.listJoined_nil, List.forall_mem_nil _⟩
  | mapLeaf hmoves =>
    refine ⟨h.containers, fun leaf hleaf => ?_⟩
    obtain ⟨before, hbefore, rfl⟩ := Option.map_eq_some_iff.1 hleaf
    exact (h.leaf before hbefore).move (hmoves before hbefore)
  | dropLeaf => exact h.dropLeaf
  | endParagraph hleaf newline trivia =>
    exact h.dropLeaf.pushBlock (Block.joined_paragraph ((h.leaf _ hleaf).paragraph newline) trivia)
  | endHeading hleaf level newline trivia =>
    exact h.dropLeaf.pushBlock
      (Block.joined_heading (h.leaf _ hleaf).inlines level newline trivia)
  | pushContainer hkind lines =>
    have opened : Container.Joined { kind := _, linesBefore := lines } :=
      ⟨List.forall_mem_nil _, by rw [hkind.items_eq]; exact List.forall_mem_nil _⟩
    exact ⟨List.forall_mem_cons.2 ⟨opened, h.containers⟩, h.leaf⟩
  | markLoose => exact h.markLoose
  | dropContainer hcons => exact (h.pop hcons).2
  | endQuote hcons _ hblocks lines trivia =>
    obtain ⟨⟨hjoined, -⟩, hrest⟩ := h.pop hcons
    refine hrest.pushBlock (Block.joined_quote (fun block hblock => ?_) lines trivia)
    rw [List.mem_reverse] at hblock
    rcases hblocks with rfl | ⟨after, rfl⟩
    · exact hjoined block hblock
    · exact forall_mem_setLinesAfter (fun _ t hb => hb.withTrivia t) after hjoined block hblock
  | @endItem c outer rest hcons style items hlist =>
    obtain ⟨⟨hblocks, -⟩, hcontainers, hleaf⟩ := h.pop hcons
    rw [List.forall_mem_cons] at hcontainers
    obtain ⟨⟨houter, hitems⟩, hrest⟩ := hcontainers
    rw [hlist] at hitems
    have item : ∀ block ∈ (ListItem.mk c.reversed.reverse .tracked).children, block.Joined :=
      fun block hblock => hblocks block (List.mem_reverse.1 hblock)
    have filled : Container.Joined
        { outer with kind := .list style (.mk c.reversed.reverse .tracked :: items) } :=
      ⟨houter, List.forall_mem_cons.2 ⟨item, hitems⟩⟩
    exact ⟨List.forall_mem_cons.2 ⟨filled, hrest⟩, hleaf⟩
  | endList hcons hlist trivia =>
    obtain ⟨⟨-, hitems⟩, hrest⟩ := h.pop hcons
    rw [hlist] at hitems
    exact hrest.pushBlock
      (Block.joined_list (fun item hitem => hitems item (List.mem_reverse.1 hitem)) _ trivia)

theorem moves (h : b.Joined) (hmoves : Moves b b') : b'.Joined := by
  induction hmoves with
  | refl => exact h
  | tail _ hmove ih => exact ih.move hmove

end Joined

theorem joined_start (source : List Char) (definitions : List ByteRange) (options : BuildOptions) :
    (start source definitions options).Joined where
  containers := List.forall_mem_singleton.2 ⟨List.forall_mem_nil _, List.forall_mem_nil _⟩
  leaf := fun _ hleaf => nomatch hleaf

end Builder

/-- No two literals of a document that is built stand next to each other. -/
theorem Document.apart_of_ofEvents? {source : String} {definitions : List ByteRange}
    {options : ParseOptions} {events : List RangedEvent} {registry : EmojiRegistry}
    {document : Document}
    (h : ofEvents? source definitions options events registry = some document) :
    ∀ inlines ∈ document.inlineLists, Inline.Apart inlines := by
  unfold ofEvents? at h
  rw [Option.bind_eq_bind, Option.bind_eq_some_iff] at h
  obtain ⟨b, hrun, hfinish⟩ := h
  obtain ⟨b', hmoves, hblocks⟩ := Builder.moves_finish hfinish
  have joined : b'.Joined :=
    (Builder.joined_start source.toList definitions _).moves
      ((Builder.moves_run hrun).trans hmoves)
  have all : ∀ block ∈ document.blocks, block.Joined :=
    hblocks Block.Joined (fun _ trivia h => h.withTrivia trivia) (fun _ hbare => hbare.joined)
      fun c hc => (joined.containers c hc).blocks
  intro inlines hinlines
  obtain ⟨block, hblock, hmem⟩ := Block.mem_listInlineLists.1 hinlines
  exact all block hblock inlines hmem

/-- **The inlines of built documents are joined, and the frames of open leaves keep their root.**
Whatever the events, no two literals of the document that is built of them stand next to each other.
When any number of the events are done, the stack that was taken along has a root at its bottom if a
leaf is open, with no more inline containers above it than the limit, and the inlines of the stack
are those of the leaf. An event that leaves a container and not the leaf leaves the root where it
is; ends of inline containers never leave the leaf. -/
theorem Document.apart_and_rooted (source : String) (definitions : List ByteRange)
    (options : ParseOptions) (registry : EmojiRegistry) (events : List RangedEvent) :
    (∀ document, ofEvents? source definitions options events registry = some document →
      ∀ inlines ∈ document.inlineLists, Inline.Apart inlines) ∧
    ∀ before, before <+: events →
      ((StackBuilder.start source.toList definitions ⟨options, registry⟩).run before).map
          (·.builder) =
        (Builder.start source.toList definitions ⟨options, registry⟩).run before ∧
      ∀ s leaf,
        (StackBuilder.start source.toList definitions ⟨options, registry⟩).run before = some s →
        s.builder.leaf = some leaf →
        s.stack.Rooted options.maxDepth ∧ s.stack.take = leaf.inlines ∧
        ∀ kind range s', s.step ⟨.leave kind, range⟩ = some s' →
          (Builder.isInlineContainer kind = true → s'.builder.leaf.isSome = true) ∧
          (s'.builder.leaf.isSome = true →
            ∃ added, s'.stack.getLast? = s.stack.getLast?.map (·.pushAll added)) := by
  refine ⟨fun document h => apart_of_ofEvents? h, fun before _ => ?_⟩
  refine ⟨StackBuilder.map_run _ before, fun s leaf hs hleaf => ?_⟩
  have shown : s.Shows := (StackBuilder.shows_start source.toList definitions _).run hs
  refine ⟨StackBuilder.rooted_of_run hs hleaf, ?_, ?_⟩
  · rw [shown leaf hleaf]
    exact leaf.take_stack
  · intro kind range s' hstep
    obtain ⟨b, hb, rfl⟩ := Option.map_eq_some_iff.1 hstep
    have left : s.builder.leave kind range = some b := hb
    refine ⟨fun hkind => ?_, fun hopen => ?_⟩
    · rw [Builder.leave_inlineContainer hkind] at left
      obtain rfl := Option.some.inj left
      rw [Builder.isSome_leaf_leaveFrame, hleaf]
      rfl
    · exact Builder.exists_getLast?_stackLeft left hopen s.stack

/-- Tildes that do not strike through are text after what they enclose, and are joined to the text
behind them. Their end leaves the leaf open and its root where it is. -/
theorem Document.apart_and_rooted_tildes :
    let before : List RangedEvent := [⟨.enter .strikethrough, ⟨0, 3⟩⟩, ⟨.text "a", ⟨1, 2⟩⟩]
    let events := before ++ [⟨.leave .strikethrough, ⟨0, 3⟩⟩, ⟨.text "b", ⟨3, 4⟩⟩]
    let options : ParseOptions := { emoji := false }
    before <+: events ∧
    ∃ document s leaf s',
      ofEvents? "~a~b" [] options events knownEmoji = some document ∧
      (∀ inlines ∈ document.inlineLists, Inline.Apart inlines) ∧
      (StackBuilder.start "~a~b".toList [] ⟨options, knownEmoji⟩).run before = some s ∧
      s.builder.leaf = some leaf ∧ s.stack.Rooted 256 ∧ s.stack.take = leaf.inlines ∧
      s.step ⟨.leave .strikethrough, ⟨0, 3⟩⟩ = some s' ∧ s'.builder.leaf.isSome = true ∧
      ∃ added, s'.stack.getLast? = s.stack.getLast?.map (·.pushAll added) := by
  intro before events options
  obtain ⟨apart, rooted⟩ := apart_and_rooted "~a~b" [] options knownEmoji events
  have earlier : before <+: events := List.prefix_append _ _
  obtain ⟨document, hdocument⟩ :
      ∃ document, ofEvents? "~a~b" [] options events knownEmoji = some document := ⟨_, rfl⟩
  obtain ⟨s, leaf, s', hs, hleaf, hstep⟩ : ∃ s leaf s',
      (StackBuilder.start "~a~b".toList [] ⟨options, knownEmoji⟩).run before = some s ∧
        s.builder.leaf = some leaf ∧ s.step ⟨.leave .strikethrough, ⟨0, 3⟩⟩ = some s' :=
    ⟨_, _, _, rfl, rfl, rfl⟩
  obtain ⟨root, take, leaving⟩ := (rooted before earlier).2 s leaf hs hleaf
  obtain ⟨stays, base⟩ := leaving .strikethrough ⟨0, 3⟩ s' hstep
  exact ⟨earlier, document, s, leaf, s', hdocument, apart document hdocument, hs, hleaf, root, take,
    hstep, stays rfl, base (stays rfl)⟩

end MarkdownSpans
