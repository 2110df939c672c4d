import MarkdownSpans.Proofs.Tree.BlockRun

/-!
# Documents of balanced events

The document that is built from the events of block trees is their translation, up to what
`Block.Agrees` leaves open (`Document.agrees_ofEvents?`). Only a source without blocks may keep a
block that its trees do not have: an empty one that carries the blank lines of the source.
-/

namespace MarkdownSpans

/-- A style that is loose also if a condition holds. -/
def ListStyle.loosenIf (loose : Bool) (style : ListStyle) : ListStyle :=
  { style with loose := style.loose || loose }

namespace ListStyle

@[simp] theorem loosenIf_false (style : ListStyle) : style.loosenIf false = style := by
  simp [loosenIf]

@[simp] theorem loosenIf_loosenIf (a b : Bool) (style : ListStyle) :
    (style.loosenIf a).loosenIf b = style.loosenIf (a || b) := by
  simp [loosenIf, Bool.or_assoc]

end ListStyle

namespace Builder

variable {source : List Char} {options : BuildOptions} {cursor : Nat}

/-! ### Items -/

/-- An open item with its blocks so far, the latest first. -/
def openItem (reversed : List Block) : Container where
  kind := .item
  reversed := reversed

/-- An open list with its items so far, the latest first. -/
def openList (lines : Option (List Line)) (style : ListStyle) (items : List ListItem) :
    Container where
  kind := .list style items
  linesBefore := lines

/-- A block that is built in an item is added to it and may mark its list loose. -/
theorem onTop_openItem (loose : Bool) (block : Block) (reversed : List Block)
    (lines : Option (List Line)) (style : ListStyle) (items : List ListItem)
    (rest : List Container) :
    onTop block (if loose then loosened (openItem reversed :: openList lines style items :: rest)
      else openItem reversed :: openList lines style items :: rest) =
    openItem (block :: reversed) :: openList lines (style.loosenIf loose) items :: rest := by
  cases loose with
  | false => simp [onTop, openItem]
  | true => simp [onTop, loosened, openItem, openList, ListStyle.loosenIf]

/-- An item is left as if its implicit paragraph had been closed first. -/
theorem leaveItem_of_closeImplicit {b : Builder} {containers : List Container}
    (h : b.closeImplicit = some (still source options containers none cursor))
    (range : ByteRange) :
    b.leaveItem range = (still source options containers none cursor).leaveItem range := by
  rw [leaveItem, h, leaveItem, closeImplicit_still]

/-- A part of an item that is built as it should be: a block with room for `n` containers, or
inlines with room for `m`. -/
def PartBuilds (source : List Char) (options : BuildOptions) (m n : Nat) : ItemPart → Prop
  | .block t => t.Fits source m n ∧
      Builds source options n t.isParagraph t.events (t.block source options)
  | .inline t => t.Fits source m

/-- The events from some part of an item to its end add an item that ends with the blocks of these
parts. -/
theorem run_parts {m n : Nat} {parts : List ItemPart} (hdepth : m ≤ options.maxDepth)
    (h : ∀ part ∈ parts, PartBuilds source options m n part) (left : ByteRange)
    {rest : List Container} (hroom : rest.length + 1 + n ≤ options.maxDepth)
    (lines : Option (List Line)) (items : List ListItem) {run : List InlineTree}
    {leaf : Option Leaf} (hwaits : Waits source options run leaf)
    (hcursor : IsPosition source cursor) (reversed : List Block) (style : ListStyle) :
    ∃ built cursor',
      List.Forall₂ Block.Agrees (BlockTree.partBlocks source options run parts) built ∧
      IsPosition source cursor' ∧
      (still source options (openItem reversed :: openList lines style items :: rest) leaf
        cursor).run (BlockTree.partsEvents parts ++ [⟨.leave .item, left⟩]) =
      some (still source options
        (openList lines (style.loosenIf (parts.any (·.isParagraph)))
          (.mk (reversed.reverse ++ built) .tracked :: items) :: rest) none cursor') := by
  induction parts generalizing run leaf cursor reversed style with
  | nil =>
    obtain ⟨built, cursor', hbuilt, hcursor', hclose⟩ :=
      hwaits.closeImplicit hcursor (openItem reversed) (openList lines style items :: rest)
    refine ⟨built, cursor', hbuilt, hcursor', ?_⟩
    show ((leaveItem left _).bind _) = _
    rw [leaveItem_of_closeImplicit hclose]
    show some (still source options
      (openList lines style (.mk (built.reverse ++ reversed).reverse .tracked :: items) :: rest)
        none cursor') = _
    rw [List.reverse_append, List.reverse_reverse, List.any_nil, ListStyle.loosenIf_false]
  | cons part more ih =>
    have hmore : ∀ part ∈ more, PartBuilds source options m n part := fun p hp => h p (.tail _ hp)
    have hpart : PartBuilds source options m n part := h part (.head _)
    cases part with
    | inline t =>
      obtain ⟨leaf', cursor₁, hwaits', hcursor₁, hrun⟩ :=
        hwaits.inline hpart hdepth hcursor
          (openItem reversed :: openList lines style items :: rest)
      obtain ⟨built, cursor₂, hbuilt, hcursor₂, hrun'⟩ :=
        ih hmore hwaits' hcursor₁ reversed style
      refine ⟨built, cursor₂, hbuilt, hcursor₂, ?_⟩
      rw [BlockTree.partsEvents, BlockTree.partEvents, List.append_assoc, run_append, hrun,
        Option.bind_some, hrun']
      rfl
    | block t =>
      obtain ⟨hfits, hbuilds⟩ := hpart
      obtain ⟨waiting, cursor₁, hwaiting, hcursor₁, hclose⟩ :=
        hwaits.closeImplicit hcursor (openItem reversed) (openList lines style items :: rest)
      obtain ⟨block, cursor₂, hblock, hcursor₂, hrun⟩ :=
        hbuilds (openItem (waiting.reverse ++ reversed)) (openList lines style items :: rest)
          cursor₁ hroom hcursor₁
      obtain ⟨built, cursor₃, hbuilt, hcursor₃, hrun'⟩ :=
        ih hmore .nothing hcursor₂ (block :: (waiting.reverse ++ reversed))
          (style.loosenIf t.isParagraph)
      refine ⟨waiting ++ block :: built, cursor₃, List.rel_append hwaiting (.cons hblock hbuilt),
        hcursor₃, ?_⟩
      have closed := run_of_closeImplicit hfits (openList lines style items :: rest) hroom hclose
      rw [onTop_openItem] at hrun
      rw [BlockTree.partsEvents, BlockTree.partEvents, List.append_assoc, run_append, closed]
      show ((still source options (openItem (waiting.reverse ++ reversed) ::
        openList lines style items :: rest) none cursor₁).run t.events).bind _ = _
      rw [hrun, Option.bind_some, hrun', ListStyle.loosenIf_loosenIf, List.any_cons]
      simp [ItemPart.isParagraph]

/-! ### Lists -/

/-- An item that is built as it should be. -/
def ItemBuilds (source : List Char) (options : BuildOptions) (m n : Nat) (item : ItemTree) :
    Prop :=
  item.entered.Fits source ∧ ∀ part ∈ item.parts, PartBuilds source options m n part

/-- The events of items add these items to the innermost container, if it is a list. -/
theorem run_items {m n : Nat} {trees : List ItemTree} (hdepth : m ≤ options.maxDepth)
    (h : ∀ item ∈ trees, ItemBuilds source options m n item) (rest : List Container)
    (hroom : rest.length + 1 + n ≤ options.maxDepth) (lines : Option (List Line))
    (hcursor : IsPosition source cursor) (items : List ListItem) (style : ListStyle) :
    ∃ (built : List ListItem) (cursor' : Nat),
      List.Forall₂ (List.Forall₂ Block.Agrees)
        ((BlockTree.items source options trees).map (·.children))
        (built.map (·.children)) ∧
      IsPosition source cursor' ∧
      (still source options (openList lines style items :: rest) none cursor).run
          (BlockTree.itemsEvents trees) =
        some (still source options
          (openList lines (style.loosenIf (trees.any (·.hasParagraph)))
            (built.reverse ++ items) :: rest) none cursor') := by
  induction trees generalizing cursor items style with
  | nil =>
    refine ⟨[], cursor, .nil, hcursor, ?_⟩
    rw [List.any_nil, ListStyle.loosenIf_false]
    rfl
  | cons item more ih =>
    obtain ⟨entered, parts, left⟩ := item
    obtain ⟨hentered, hparts⟩ : entered.Fits source ∧
        ∀ part ∈ parts, PartBuilds source options m n part := h _ (.head _)
    obtain ⟨built, cursor₁, hbuilt, hcursor₁, hrun⟩ :=
      run_parts hdepth hparts left hroom lines items .nothing hentered.start [] style
    obtain ⟨builts, cursor₂, hbuilts, hcursor₂, hrun'⟩ :=
      ih (fun item hitem => h item (.tail _ hitem)) hcursor₁ (.mk built .tracked :: items)
        (style.loosenIf (parts.any (·.isParagraph)))
    refine ⟨.mk built .tracked :: builts, cursor₂, .cons hbuilt hbuilts, hcursor₂, ?_⟩
    rw [BlockTree.itemsEvents, BlockTree.itemEvents, List.cons_append, run_cons]
    show ((still source options (openItem [] :: openList lines style items :: rest) none
      entered.start).run _) = _
    rw [run_append, hrun, Option.bind_some, List.reverse_nil, List.nil_append, hrun',
      ListStyle.loosenIf_loosenIf, List.reverse_cons, List.append_assoc]
    rfl

theorem Builds.list {m n : Nat} {entered : ByteRange} {trees : List ItemTree}
    (hdepth : m ≤ options.maxDepth) (h : ∀ item ∈ trees, ItemBuilds source options m n item)
    (hentered : entered.Fits source) (first : Option Nat) (left : ByteRange) :
    Builds source options (n + 2) false
      (⟨.enter (.list first), entered⟩ ::
        (BlockTree.itemsEvents trees ++ [⟨.leave .list, left⟩]))
      (.list { ordered := first.isSome, loose := trees.any (·.hasParagraph) }
        (BlockTree.items source options trees) {}) := by
  intro c rest cursor hroom hcursor
  obtain ⟨lines, cursor₁, hcursor₁, hbegin⟩ :=
    beginBlock_still hcursor hentered.start options (c :: rest)
  obtain ⟨-, after, -, -, -, hafter⟩ := hentered.start.exists_take
  have begun : (still source options (c :: rest) none cursor).step
      ⟨.enter (.list first), entered⟩ =
        some (still source options (openList lines (listStyle first after) [] :: c :: rest) none
          cursor₁) := by
    show (still source options (c :: rest) none cursor).enterList first entered = _
    rw [enterList, if_pos (fits_still c none cursor (by omega)), hbegin]
    show ((dropBytes source entered.start).bind _) = _
    rw [hafter]
    rfl
  obtain ⟨built, cursor₂, hbuilt, hcursor₂, hrun⟩ :=
    run_items hdepth h (c :: rest) (by simp; omega) lines hcursor₁ []
      (listStyle first after)
  refine ⟨.list ((listStyle first after).loosenIf (trees.any (·.hasParagraph))) built
    (tracked lines), cursor₂, .list _ _ ?_ ?_ hbuilt, hcursor₂, run_within begun hrun ?_⟩
  · cases first <;> rfl
  · cases first <;> rfl
  · rw [List.append_nil]
    show some (still source options (onTop (.list _ built.reverse.reverse (tracked lines))
      (c :: rest)) none cursor₂) = _
    rw [List.reverse_reverse]
    rfl

end Builder

/-! ### Trees -/

namespace BlockTree

variable {source : List Char} {options : BuildOptions} {m n : Nat}

theorem buildsAll_list {ts : List BlockTree}
    (h : ∀ t ∈ ts, Builder.Builds source options n t.isParagraph t.events
      (t.block source options)) :
    Builder.BuildsAll source options n (listEvents ts) (blocks source options ts) := by
  induction ts with
  | nil => exact .nil
  | cons t rest ih => exact .cons (h t (.head _)) (ih fun t ht => h t (.tail _ ht))

/-- The events of a tree build its block. -/
theorem Fits.builds {t : BlockTree} (h : t.Fits source m n) (hdepth : m ≤ options.maxDepth) :
    Builder.Builds source options n t.isParagraph t.events (t.block source options) := by
  induction h with
  | paragraph hentered hleft hcontent =>
    exact .paragraph (InlineTree.appends_list fun t ht => (hcontent t ht).appends options) hdepth
      hentered hleft
  | heading level hentered hleft hcontent =>
    exact .heading (InlineTree.appends_list fun t ht => (hcontent t ht).appends options) hdepth
      hentered hleft level
  | code info texts hentered hleft => exact .code hentered hleft info texts
  | markup pieces hentered hleft => exact .markup hentered hleft pieces
  | rule hrange => exact .rule hrange
  | quote hentered hleft hle _ ih => exact .quote (buildsAll_list ih) hentered hleft hle
  | list first left hentered hitems hblocks hinlines ih =>
    refine .list hdepth (fun item hitem => ⟨hitems item hitem, fun part hpart => ?_⟩) hentered
      first left
    cases part with
    | block t => exact ⟨hblocks item hitem t hpart, ih item hitem t hpart⟩
    | inline t => exact hinlines item hitem t hpart

end BlockTree

/-! ### Documents -/

namespace Builder

/-- The blocks of a document, the latest first, with the blank lines at the end of its source. -/
def withTrailing (trailing : List Line) (reversed : List Block) : List Block :=
  if trailing.isEmpty then reversed
  else if reversed.isEmpty then [.emptyBlock { linesAfter := some trailing }]
  else setLinesAfter trailing reversed

theorem finish_still {source : List Char} {options : BuildOptions} {cursor : Nat}
    {trailing : List Line} (h : gapFrom? source false cursor (byteLength source) = some trailing)
    (reversed : List Block) :
    (still source options [{ kind := .document, reversed }] none cursor).finish =
      some ⟨(withTrailing trailing reversed).reverse⟩ := by
  show ((gapFrom? source false cursor (byteLength source)).bind _) = _
  rw [h]
  simp [openBlocks, still, withTrailing]

/-- The document of events that leave no block open, from what they build and the lines behind the
cursor. -/
theorem ofEvents?_of_run {source : String} {cs : List Char} (hsource : source.toList = cs)
    {options : ParseOptions} {registry : EmojiRegistry} {events : List RangedEvent}
    {reversed : List Block} {cursor : Nat} {trailing : List Line}
    (hrun : (still cs ⟨options, registry⟩ [{ kind := .document }] none 0).run events =
      some (still cs ⟨options, registry⟩ [{ kind := .document, reversed }] none cursor))
    (htrailing : gapFrom? cs false cursor (byteLength cs) = some trailing) :
    Document.ofEvents? source [] options events registry =
      some ⟨(withTrailing trailing reversed).reverse⟩ := by
  subst hsource
  show ((still source.toList ⟨options, registry⟩ [{ kind := .document }] none 0).run events).bind _
    = _
  rw [hrun, Option.bind_some]
  exact finish_still htrailing reversed

/-- Blank lines at the end only make a difference if there is no block. -/
theorem agrees_withTrailing {expected reversed : List Block}
    (h : List.Forall₂ Block.Agrees expected reversed) (trailing : List Line) :
    List.Forall₂ Block.Agrees expected (withTrailing trailing reversed) ∨
      expected = [] ∧ ∃ t, withTrailing trailing reversed = [.emptyBlock t] := by
  unfold withTrailing
  by_cases hnone : trailing.isEmpty
  · rw [if_pos hnone]
    exact .inl h
  rw [if_neg hnone]
  cases h with
  | nil => exact .inr ⟨rfl, _, rfl⟩
  | cons hlast hrest => exact .inl (agrees_setLinesAfter (.cons hlast hrest) trailing)

end Builder

/-- **The document of balanced events is their translation**, up to what `Block.Agrees` leaves
open; a source without blocks may keep an empty block that carries its blank lines. -/
theorem Document.agrees_ofEvents? (source : String) (options : ParseOptions)
    (registry : EmojiRegistry) (trees : List BlockTree)
    (h : ∀ t ∈ trees, t.Fits source.toList options.maxDepth options.maxDepth) :
    ∃ document,
      Document.ofEvents? source [] options (BlockTree.listEvents trees) registry =
        some document ∧
      (List.Forall₂ Block.Agrees (BlockTree.blocks source.toList ⟨options, registry⟩ trees)
          document.blocks ∨
        trees = [] ∧ ∃ t, document.blocks = [.emptyBlock t]) := by
  have builds : Builder.BuildsAll source.toList ⟨options, registry⟩ options.maxDepth _
      (BlockTree.blocks source.toList ⟨options, registry⟩ trees) :=
    BlockTree.buildsAll_list fun t ht => (h t ht).builds (Nat.le_refl _)
  obtain ⟨built, cursor, hbuilt, hcursor, hrun⟩ :=
    builds { kind := .document } [] 0 nofun (by simp) (.zero _)
  obtain ⟨trailing, htrailing⟩ := hcursor.exists_gap (.length _) false
  refine ⟨⟨(Builder.withTrailing trailing built.reverse).reverse⟩, ?_, ?_⟩
  · rw [List.append_nil] at hrun
    exact Builder.ofEvents?_of_run rfl hrun htrailing
  rcases Builder.agrees_withTrailing (List.forall₂_reverse_iff.2 hbuilt) trailing with
    h | ⟨hnone, t, hempty⟩
  · exact .inl (by simpa using List.forall₂_reverse_iff.2 h)
  · refine .inr ⟨?_, t, by rw [hempty, List.reverse_singleton]⟩
    cases trees with
    | nil => rfl
    | cons => simp [BlockTree.blocks] at hnone

/-- The tree of a list with two items, the second of which holds an emphasis. -/
def BlockTree.twoItems : BlockTree :=
  .list none ⟨0, 10⟩
    [.mk ⟨0, 4⟩ [.inline (.text "a" ⟨2, 3⟩)] ⟨0, 4⟩,
      .mk ⟨4, 10⟩ [.inline (.container .emphasis ⟨6, 9⟩ [.text "b" ⟨7, 8⟩] ⟨6, 9⟩)] ⟨4, 10⟩]
    ⟨0, 10⟩

theorem Document.agrees_ofEvents?_twoItems :
    (∀ t ∈ [BlockTree.twoItems], t.Fits "- a\n- *b*\n".toList 2 2) ∧
    ∃ document,
      Document.ofEvents? "- a\n- *b*\n" [] { maxDepth := 2 }
        (BlockTree.listEvents [BlockTree.twoItems]) = some document ∧
      (List.Forall₂ Block.Agrees
          (BlockTree.blocks "- a\n- *b*\n".toList ⟨{ maxDepth := 2 }, knownEmoji⟩
            [BlockTree.twoItems])
          document.blocks ∨
        [BlockTree.twoItems] = [] ∧ ∃ t, document.blocks = [.emptyBlock t]) := by
  have fits : ∀ t ∈ [BlockTree.twoItems], t.Fits "- a\n- *b*\n".toList 2 2 := by
    intro t ht
    obtain rfl : t = BlockTree.twoItems := by simpa using ht
    have inner : ∀ t ∈ [InlineTree.text "b" ⟨7, 8⟩], t.Fits "- a\n- *b*\n".toList 1 := by
      simpa using InlineTree.Fits.text "b" (by decide)
    refine .list none _ (by decide) ?_ ?_ ?_
    · simp [ItemTree.entered]
      decide
    · simp [ItemTree.parts]
    · simpa [ItemTree.parts] using
        ⟨InlineTree.Fits.text "a" (by decide), .container .emphasis _ (by decide) inner⟩
  exact ⟨fits, Document.agrees_ofEvents? _ { maxDepth := 2 } knownEmoji _ fits⟩

/-- A source of blank lines keeps a block that its events do not have. -/
theorem Document.not_agrees_ofEvents?_blank :
    ¬ ∃ document,
      Document.ofEvents? "\n" [] {} (BlockTree.listEvents []) = some document ∧
      List.Forall₂ Block.Agrees (BlockTree.blocks "\n".toList ⟨{}, knownEmoji⟩ [])
        document.blocks := by
  rintro ⟨document, hbuilt, hagrees⟩
  have blocks : Document.ofEvents? "\n" [] {} (BlockTree.listEvents []) =
      some ⟨[.emptyBlock { linesAfter := some [.blank .lf] }]⟩ := rfl
  obtain rfl : document = _ := Option.some.inj (hbuilt.symm.trans blocks)
  cases hagrees

end MarkdownSpans
