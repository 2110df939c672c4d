import MarkdownSpans.Proofs.Tree.Placed

/-!
# Every link definition once and in order

The ranges of the link definitions wait in a queue. At the start of a block, at the end of a quote
or an item and at the end of the source those at the front of it are read and become a group in the
innermost container. What is read at any time are the definitions of the ranges taken so far, in
their order (`Builder.Ledger`): containers are closed into the one around them, and only a list has
no place for blocks of its own. So balanced events in which lists hold nothing but items, and items
stand in lists only, lose none (`Builder.Ledger.run`).
-/

namespace MarkdownSpans

/-- Lists hold nothing but items, and items stand in lists only; what is asked of the trees of a
forest depends on whether it is the content of a list. -/
def EventForest.Listed : EventForest → Bool → Prop
  | .nil, _ => True
  | .event _ _ _ rest, inList => inList = false ∧ rest.Listed inList
  | .enclose tag _ _ inner rest, inList =>
    (tag.kind = .item ↔ inList = true) ∧ inner.Listed (tag.kind = .list) ∧ rest.Listed inList

/-- The definition is the one read of the source from the start of a range to the end of the last
line it reaches, with the terminator of that line. -/
def LinkDefinition.ReadAt (source : List Char) (range : ByteRange) (definition : LinkDefinition) :
    Prop :=
  ∃ last raw linesBefore, blockEnd? source range = some last ∧
    sliceChars source range.start last.contentStop = some raw ∧
    definition = .read (String.ofList raw) last.newline linesBefore

/-! ### The groups in open containers -/

/-- Whether a container gathers items. -/
def ContainerKind.isList : ContainerKind → Bool
  | list _ _ => true
  | _ => false

theorem ContainerKind.exists_of_isList {kind : ContainerKind} (h : kind.isList = true) :
    ∃ style items, kind = .list style items := by
  cases kind with
  | list style items => exact ⟨style, items, rfl⟩
  | document | quote _ | item => cases h

theorem ContainerKind.bare_of_not_list {kind : ContainerKind} (h : kind.isList = false) :
    kind.bare = kind := by
  cases kind with
  | list _ _ => cases h
  | document | quote _ | item => rfl

@[simp] theorem ContainerKind.isList_bare (kind : ContainerKind) :
    kind.bare.isList = kind.isList := by
  cases kind <;> rfl

/-- The groups in the items that a container has gathered. -/
def ContainerKind.groups : ContainerKind → List (List LinkDefinition)
  | list _ reversedItems => Block.itemsGroups reversedItems.reverse
  | _ => []

/-- The groups in an open container: those of its items, then those of its blocks. -/
def Container.groups (c : Container) : List (List LinkDefinition) :=
  c.kind.groups ++ Block.listGroups c.reversed.reverse

/-- The groups in open containers, innermost container first, in document order. -/
def stackGroups : List Container → List (List LinkDefinition)
  | [] => []
  | c :: rest => stackGroups rest ++ c.groups

theorem Container.groups_cons (block : Block) (c : Container) :
    ({ c with reversed := block :: c.reversed } : Container).groups = c.groups ++ block.groups := by
  simp [groups, Block.listGroups]

namespace Builder

variable {source : List Char} {ranges : List ByteRange} {b b' : Builder} {range : ByteRange}
  {p : Prop} {block : Block}

/-- A block that is added brings its groups behind the others. -/
theorem stackGroups_pushBlock (h : b.containers ≠ [] ∨ block.groups = []) :
    stackGroups (b.pushBlock block).containers = stackGroups b.containers ++ block.groups := by
  unfold pushBlock
  split
  next hnil =>
    obtain hblock : block.groups = [] := h.resolve_left (absurd hnil)
    rw [hblock, List.append_nil]
  next c rest hcons =>
    rw [hcons, stackGroups, stackGroups, Container.groups_cons, List.append_assoc]

@[simp] theorem definitions_pushBlock (b : Builder) (block : Block) :
    (b.pushBlock block).definitions = b.definitions := by
  unfold pushBlock
  split <;> rfl

/-- The innermost container has a place for blocks. -/
def Receives (b : Builder) : Prop :=
  ∃ kind kinds, b.skeleton.1 = kind :: kinds ∧ kind.isList = false

theorem Receives.congr (h : b.Receives) (hskeleton : b'.skeleton = b.skeleton) : b'.Receives := by
  unfold Receives
  rw [hskeleton]
  exact h

theorem receives_cons {c : Container} {rest : List Container} (h : b.containers = c :: rest) :
    b.Receives ↔ c.kind.isList = false := by
  simp [Receives, skeleton, h]

/-- The innermost container, with its kind as far as the skeleton tells. -/
theorem exists_of_skeleton {kind : ContainerKind} {kinds : List ContainerKind}
    (h : b.skeleton.1 = kind :: kinds) :
    ∃ kind' reversed lines rest, b.containers = ⟨kind', reversed, lines⟩ :: rest ∧
      kind'.bare = kind ∧ rest.map (·.kind.bare) = kinds := by
  obtain ⟨c, rest, hcons, hkind, hrest⟩ := List.map_eq_cons_iff.1 h
  exact ⟨c.kind, c.reversed, c.linesBefore, rest, hcons, hkind, hrest⟩

/-- A container that gathers no items is the innermost one. -/
theorem exists_of_skeleton_not_list {kind : ContainerKind} {kinds : List ContainerKind}
    (h : b.skeleton.1 = kind :: kinds) (hkind : kind.isList = false) :
    ∃ reversed lines rest, b.containers = ⟨kind, reversed, lines⟩ :: rest ∧
      rest.map (·.kind.bare) = kinds := by
  obtain ⟨kind', reversed, lines, rest, hcons, rfl, hrest⟩ := exists_of_skeleton h
  rw [ContainerKind.isList_bare] at hkind
  rw [ContainerKind.bare_of_not_list hkind]
  exact ⟨reversed, lines, rest, hcons, hrest⟩

theorem Receives.ne_nil (h : b.Receives) : b.containers ≠ [] := by
  rintro hnil
  obtain ⟨kind, kinds, hskeleton, -⟩ := h
  simp [skeleton, hnil] at hskeleton

/-! ### What a builder has read so far -/

/-- The definitions put into the document are those of the ranges taken from the front of the
queue, one for each and in their order, and no group is empty. Open lists have no groups among blocks
of their own. -/
structure Ledger (source : List Char) (ranges : List ByteRange) (b : Builder) : Prop where
  source_eq : b.source = source
  taken : ∃ taken, ranges = taken ++ b.definitions ∧
    List.Forall₂ (LinkDefinition.ReadAt source) taken (stackGroups b.containers).flatten
  nonempty : ∀ group ∈ stackGroups b.containers, group ≠ []
  lists : ∀ c ∈ b.containers, c.kind.isList = true → Block.listGroups c.reversed.reverse = []

namespace Ledger

theorem start (source : List Char) (ranges : List ByteRange) (options : BuildOptions) :
    Ledger source ranges (Builder.start source ranges options) where
  source_eq := rfl
  taken := ⟨[], rfl, .nil⟩
  nonempty := nofun
  lists := by
    rintro c hc hlist
    obtain rfl := List.mem_singleton.1 hc
    cases hlist

/-- Only the queue and the groups in the open containers matter. -/
theorem congr (h : Ledger source ranges b) (hsource : b'.source = b.source)
    (hdefinitions : b'.definitions = b.definitions)
    (hgroups : stackGroups b'.containers = stackGroups b.containers)
    (hlists : ∀ c ∈ b'.containers, c.kind.isList = true →
      Block.listGroups c.reversed.reverse = []) : Ledger source ranges b' where
  source_eq := hsource.trans h.source_eq
  taken := by
    rw [hdefinitions, hgroups]
    exact h.taken
  nonempty := by
    rw [hgroups]
    exact h.nonempty
  lists := hlists

/-- Open lists keep having no groups of their own, if none are added to one. -/
theorem lists_pushBlock (hlists : ∀ c ∈ b.containers, c.kind.isList = true →
      Block.listGroups c.reversed.reverse = []) (hblock : b.Receives ∨ block.groups = []) :
    ∀ c ∈ (b.pushBlock block).containers, c.kind.isList = true →
      Block.listGroups c.reversed.reverse = [] := by
  unfold Builder.pushBlock
  split
  · exact hlists
  next c rest hcons =>
    rw [hcons] at hlists
    obtain ⟨hc, hrest⟩ := List.forall_mem_cons.1 hlists
    refine List.forall_mem_cons.2 ⟨fun hlist => ?_, hrest⟩
    rcases hblock with hreceives | hgroups
    · rw [receives_cons hcons] at hreceives
      exact absurd hlist (by simp [hreceives])
    · simp [Block.listGroups, hc hlist, hgroups]

theorem pushBlock (h : Ledger source ranges b) (hblock : block.groups = []) :
    Ledger source ranges (b.pushBlock block) := by
  refine h.congr (source_pushBlock b block) (definitions_pushBlock b block) ?_
    (lists_pushBlock h.lists (.inr hblock))
  rw [stackGroups_pushBlock (.inr hblock), hblock, List.append_nil]

theorem markLoose (h : Ledger source ranges b) : Ledger source ranges b.markLoose := by
  unfold Builder.markLoose
  split
  next hcons =>
    have hlists := h.lists
    rw [hcons] at hlists
    obtain ⟨hitem, hrest⟩ := List.forall_mem_cons.1 hlists
    obtain ⟨houter, hrest⟩ := List.forall_mem_cons.1 hrest
    refine h.congr rfl rfl (by rw [hcons]; rfl) ?_
    exact List.forall_mem_cons.2 ⟨nofun, List.forall_mem_cons.2 ⟨fun _ => houter rfl, hrest⟩⟩
  · exact h

/-- What is taken from the front of the queue is read range by range. -/
theorem exists_taken {nested : Bool} {limit : Option Nat} {waiting ranges' : List ByteRange}
    {cursor cursor' : Nat} {definitions : List LinkDefinition}
    (h : takeDefinitions source nested limit waiting cursor =
      some (definitions, ranges', cursor')) :
    (∃ taken, waiting = taken ++ ranges' ∧
      List.Forall₂ (LinkDefinition.ReadAt source) taken definitions) ∧
    (limit = none → ranges' = []) := by
  induction waiting generalizing cursor definitions with
  | nil =>
    cases h
    exact ⟨⟨[], rfl, .nil⟩, fun _ => rfl⟩
  | cons range rest ih =>
    rw [takeDefinitions] at h
    split_ifs at h with hlimit
    · simp only [Option.bind_eq_bind, Option.bind_eq_some_iff, Option.some.injEq,
        Prod.mk.injEq] at h
      obtain ⟨lineStart, -, lines, -, last, hlast, raw, hraw, ⟨others, ranges₁, cursor₁⟩, htake,
        rfl, rfl, rfl⟩ := h
      obtain ⟨⟨taken, rfl, hread⟩, hnone⟩ := ih htake
      exact ⟨⟨range :: taken, rfl, .cons ⟨last, raw, _, hlast, hraw, rfl⟩ hread⟩, hnone⟩
    · cases h
      refine ⟨⟨[], rfl, .nil⟩, ?_⟩
      rintro rfl
      exact absurd rfl hlimit

theorem flushDefinitions {limit : Option Nat} (h : Ledger source ranges b) (hreceives : b.Receives)
    (hflush : b.flushDefinitions limit = some b') : Ledger source ranges b' := by
  simp only [Builder.flushDefinitions, Option.bind_eq_bind, Option.bind_eq_some_iff,
    Option.some.injEq] at hflush
  obtain ⟨⟨definitions, ranges', cursor⟩, htake, rfl⟩ := hflush
  rw [h.source_eq] at htake
  obtain ⟨⟨added, hqueue, hadded⟩, -⟩ := exists_taken htake
  obtain ⟨taken, htaken, hread⟩ := h.taken
  rw [hqueue, ← List.append_assoc] at htaken
  split
  next hempty =>
    -- Without definitions nothing was taken.
    obtain rfl := List.isEmpty_iff.1 hempty
    obtain rfl := List.forall₂_nil_right_iff.1 hadded
    exact ⟨h.source_eq, ⟨taken, by simpa using htaken, hread⟩, h.nonempty, h.lists⟩
  next hnonempty =>
    have receives : ({ b with definitions := ranges', cursor } : Builder).Receives := hreceives
    have groups : stackGroups (({ b with definitions := ranges', cursor } : Builder).pushBlock
        (.linkDefinitionGroup definitions .tracked)).containers =
          stackGroups b.containers ++ [definitions] := by
      rw [stackGroups_pushBlock (.inl receives.ne_nil), Block.groups]
    refine ⟨(source_pushBlock _ _).trans h.source_eq, ⟨taken ++ added, ?_, ?_⟩, ?_,
      lists_pushBlock h.lists (.inl receives)⟩
    · rw [htaken, definitions_pushBlock]
    · rw [groups, List.flatten_concat]
      exact List.rel_append hread hadded
    · rw [groups]
      intro group hgroup
      rcases List.mem_append.1 hgroup with hold | hnew
      · exact h.nonempty group hold
      · obtain rfl := List.mem_singleton.1 hnew
        exact fun hnil => hnonempty (List.isEmpty_iff.2 hnil)

/-- Work inside of a container that has a place for blocks. -/
theorem fills (h : Ledger source ranges b) (hfills : Fills p b b') (hreceives : p → b.Receives) :
    Ledger source ranges b' := by
  induction hfills with
  | move b leaf cursor => exact h.congr rfl rfl rfl h.lists
  | pushBlock b hblock => exact h.pushBlock hblock
  | markLoose b => exact h.markLoose
  | flushDefinitions hflushing hflush => exact h.flushDefinitions (hreceives hflushing) hflush
  | trans hfirst _ ih ih' =>
    exact ih' (ih h hreceives) fun hflushing => (hreceives hflushing).congr hfirst.skeleton

/-! ### Containers -/

theorem groups_of_opens {kind : ContainerKind} {tag : Tag} (h : Opens range kind tag) :
    kind.groups = [] := by
  cases tag with
  | blockQuote | item =>
    obtain rfl := h
    rfl
  | list first =>
    obtain ⟨style, rfl⟩ := h
    rfl
  | _ => cases h

/-- A container that is opened has nothing in it yet. -/
theorem pushContainer {kind : ContainerKind} (h : Ledger source ranges b) (hkind : kind.groups = [])
    (lines : Option (List Line)) : Ledger source ranges (b.pushContainer kind lines) := by
  refine h.congr rfl rfl ?_ (List.forall_mem_cons.2 ⟨fun _ => rfl, h.lists⟩)
  simp [Builder.pushContainer, stackGroups, Container.groups, hkind, Block.listGroups]

/-- The cursor and the numbers of containers that are counted make no difference. -/
theorem count (h : Ledger source ranges b) (cursor m n : Nat) :
    Ledger source ranges { b with cursor, skippedContainers := m, skippedFrames := n } :=
  h.congr rfl rfl rfl h.lists

/-- A container that is closed as a block with its groups leaves them in their place. -/
theorem close {c : Container} {rest : List Container} (h : Ledger source ranges b)
    (hcons : b.containers = c :: rest) (hgroups : block.groups = c.groups)
    (hreceives : ({ b with containers := rest } : Builder).Receives) :
    Ledger source ranges (({ b with containers := rest } : Builder).pushBlock block) := by
  refine h.congr (source_pushBlock _ _) (definitions_pushBlock _ _) ?_
    (lists_pushBlock (fun c hc => h.lists c (by rw [hcons]; exact .tail _ hc)) (.inl hreceives))
  rw [stackGroups_pushBlock (.inl hreceives.ne_nil), hcons, stackGroups, hgroups]

theorem leaveQuote {start : Nat} {outer : List ContainerKind} (h : Ledger source ranges b)
    (hquote : b.skeleton.1 = .quote start :: outer)
    (houter : ∃ kind kinds, outer = kind :: kinds ∧ kind.isList = false)
    (hleave : b.leaveQuote range = some b') : Ledger source ranges b' := by
  simp only [Builder.leaveQuote, Option.bind_eq_bind, Option.bind_eq_some_iff] at hleave
  obtain ⟨b₁, hclose, b₂, hflush, last, -, trailing, -, hleave⟩ := hleave
  have flushed : Fills True b b₂ :=
    .trans (fills_closeImplicit hclose) (.flushDefinitions trivial hflush)
  have h₂ := h.fills flushed fun _ => ⟨_, _, hquote, rfl⟩
  rw [← flushed.skeleton] at hquote
  obtain ⟨reversed, lines, rest, hcons, hrest⟩ := exists_of_skeleton_not_list hquote rfl
  simp only [hcons, Option.bind_eq_some_iff, Option.some.injEq] at hleave
  obtain ⟨lineStart, -, text, -, rfl⟩ := hleave
  have groups (quoteLines : List QuoteLine) (trivia : Trivia) :
      (Block.quote quoteLines (if trailing.isEmpty then reversed
        else setLinesAfter trailing reversed).reverse trivia).groups =
          Container.groups ⟨.quote start, reversed, lines⟩ := by
    rw [Block.groups]
    split
    · rfl
    · exact listGroups_setLinesAfter _ _
  have receives : ({ b₂ with containers := rest } : Builder).Receives := by
    obtain ⟨kind, kinds, houter, hkind⟩ := houter
    exact ⟨kind, kinds, hrest.trans houter, hkind⟩
  exact (h₂.close hcons (groups _ _) receives).count _ _ _

/-- An item is closed into the list around it, behind the items before it. -/
theorem leaveItem {outer : List ContainerKind} (h : Ledger source ranges b)
    (hitem : b.skeleton.1 = .item :: outer)
    (houter : ∃ kind kinds, outer = kind :: kinds ∧ kind.isList = true)
    (hleave : b.leaveItem range = some b') : Ledger source ranges b' := by
  simp only [Builder.leaveItem, Option.bind_eq_bind, Option.bind_eq_some_iff] at hleave
  obtain ⟨b₁, hclose, b₂, hflush, hleave⟩ := hleave
  have flushed : Fills True b b₂ :=
    .trans (fills_closeImplicit hclose) (.flushDefinitions trivial hflush)
  have h₂ := h.fills flushed fun _ => ⟨_, _, hitem, rfl⟩
  rw [← flushed.skeleton] at hitem
  obtain ⟨reversed, lines, rest', hcons, hrest'⟩ := exists_of_skeleton_not_list hitem rfl
  obtain ⟨kind, kinds, rfl, hlist⟩ := houter
  obtain ⟨⟨kind, listReversed, listLines⟩, rest, rfl, rfl, -⟩ := List.map_eq_cons_iff.1 hrest'
  obtain ⟨style, items, rfl⟩ := ContainerKind.exists_of_isList (kind.isList_bare ▸ hlist)
  simp only [hcons, Option.some.injEq] at hleave
  obtain rfl := hleave
  have hlists := h₂.lists
  rw [hcons] at hlists
  obtain ⟨-, hlists⟩ := List.forall_mem_cons.1 hlists
  obtain ⟨hblocks, hrest⟩ := List.forall_mem_cons.1 hlists
  have bare : Block.listGroups listReversed.reverse = [] := hblocks rfl
  refine h₂.congr rfl rfl ?_ (List.forall_mem_cons.2 ⟨fun _ => bare, hrest⟩)
  simp [hcons, stackGroups, Container.groups, ContainerKind.groups, bare, Block.itemsGroups]

theorem leaveList {outer : List ContainerKind} (h : Ledger source ranges b)
    (hlist : b.skeleton.1 = .list {} [] :: outer)
    (houter : ∃ kind kinds, outer = kind :: kinds ∧ kind.isList = false) :
    Ledger source ranges b.leaveList := by
  obtain ⟨kind, reversed, lines, rest, hcons, hkind, hrest⟩ := exists_of_skeleton hlist
  have gathers : kind.isList = true := by
    rw [← ContainerKind.isList_bare, hkind]
    rfl
  obtain ⟨style, items, rfl⟩ := ContainerKind.exists_of_isList gathers
  have bare : Block.listGroups reversed.reverse = [] :=
    h.lists _ (by rw [hcons]; exact .head _) rfl
  have groups : (Block.list style items.reverse (tracked lines)).groups =
      Container.groups ⟨.list style items, reversed, lines⟩ := by
    rw [Block.groups, Container.groups, bare, List.append_nil]
    rfl
  have receives : ({ b with containers := rest } : Builder).Receives := by
    obtain ⟨kind, kinds, houter, hkind⟩ := houter
    exact ⟨kind, kinds, hrest.trans houter, hkind⟩
  unfold Builder.leaveList
  rw [hcons]
  exact h.close hcons groups receives

theorem leaveFrame (h : Ledger source ranges b) : Ledger source ranges b.leaveFrame := by
  unfold Builder.leaveFrame
  split
  · exact h.count _ _ _
  · exact h.congr rfl rfl rfl h.lists

/-- Leaving a container that was opened in one that has a place for it. -/
theorem leave {tag : Tag} {kind : ContainerKind} {outer : List ContainerKind} {range' : ByteRange}
    (h : Ledger source ranges b) (hopens : Opens range kind tag)
    (hkind : b.skeleton.1 = kind.bare :: outer) (hskipped : b.skippedContainers = 0)
    (houter : ∃ kind kinds, outer = kind :: kinds ∧ (kind.isList = true ↔ tag.kind = .item))
    (hleave : b.leave tag.kind range' = some b') : Ledger source ranges b' := by
  unfold Builder.leave at hleave
  rw [if_neg (opened_of_none_skipped hskipped tag.kind)] at hleave
  cases tag with
  | blockQuote =>
    obtain rfl := hopens
    refine h.leaveQuote hkind ?_ hleave
    simpa [Tag.kind] using houter
  | list first =>
    obtain ⟨style, rfl⟩ := hopens
    obtain rfl := Option.some.inj hleave
    refine h.leaveList hkind ?_
    simpa [Tag.kind] using houter
  | item =>
    obtain rfl := hopens
    refine h.leaveItem hkind ?_ hleave
    simpa [Tag.kind] using houter
  | _ => cases hopens

end Ledger

/-! ### Runs -/

/-- Directly in a list that was opened that list is the innermost container; elsewhere the innermost
container is none. -/
def Ready (inList : Bool) (b : Builder) : Prop :=
  ∃ kind kinds, b.skeleton.1 = kind :: kinds ∧
    (kind.isList = true ↔ inList = true ∧ b.skippedContainers = 0)

namespace Ready

variable {inList : Bool}

theorem congr (h : b.Ready inList) (hskeleton : b'.skeleton = b.skeleton) : b'.Ready inList := by
  obtain ⟨kind, kinds, hkind, hlist⟩ := h
  have skipped : b'.skippedContainers = b.skippedContainers := skippedContainers_congr hskeleton
  exact ⟨kind, kinds, by rw [hskeleton, hkind], by rw [skipped, hlist]⟩

theorem receives (h : b.Ready inList) (hlist : inList = false ∨ 0 < b.skippedContainers) :
    b.Receives := by
  obtain ⟨kind, kinds, hkind, hiff⟩ := h
  refine ⟨kind, kinds, hkind, ?_⟩
  rw [Bool.eq_false_iff, Ne, hiff]
  rintro ⟨rfl, hzero⟩
  rcases hlist with hlist | hskipped
  · cases hlist
  · omega

theorem of_receives (h : b.Receives) (hlist : inList = false ∨ 0 < b.skippedContainers) :
    b.Ready inList := by
  obtain ⟨kind, kinds, hkind, hfalse⟩ := h
  refine ⟨kind, kinds, hkind, ?_⟩
  rw [hfalse]
  refine ⟨nofun, ?_⟩
  rintro ⟨rfl, hzero⟩
  rcases hlist with hlist | hskipped
  · cases hlist
  · omega

/-- What is opened for a tag is a list if the tag is one. -/
theorem pushContainer {tag : Tag} {kind : ContainerKind} (hopens : Opens range kind tag)
    (hskipped : b.skippedContainers = 0) (lines : Option (List Line)) :
    (b.pushContainer kind lines).Ready (tag.kind = .list) := by
  refine ⟨kind.bare, b.skeleton.1, rfl, ?_⟩
  rw [ContainerKind.isList_bare]
  have zero : (b.pushContainer kind lines).skippedContainers = 0 := hskipped
  cases tag with
  | blockQuote | item =>
    obtain rfl := hopens
    simp [ContainerKind.isList, Tag.kind]
  | list first =>
    obtain ⟨style, rfl⟩ := hopens
    simp [ContainerKind.isList, Tag.kind, zero]
  | _ => cases hopens

end Ready

/-- Balanced events in which lists hold items keep the ledger. -/
theorem Ledger.run (forest : EventForest) {inList : Bool} (h : Ledger source ranges b)
    (hready : b.Ready inList) (hlisted : forest.Listed inList)
    (hrun : b.run forest.events = some b') : Ledger source ranges b' := by
  induction forest generalizing b b' inList with
  | nil =>
    cases hrun
    exact h
  | event e henter hleave rest ih =>
    obtain ⟨b₁, hstep, hrest⟩ := EventForest.exists_of_run_event hrun
    obtain ⟨rfl, hlisted⟩ := hlisted
    have filled := fills_step henter hleave hstep
    exact ih (h.fills filled fun _ => hready.receives (.inl rfl)) (hready.congr filled.skeleton)
      hlisted hrest
  | enclose tag range range' inner rest ih ih' =>
    obtain ⟨b₁, b₂, b₃, henter, hinner, hleave, hrest⟩ := EventForest.exists_of_run_enclose hrun
    obtain ⟨hitem, hlistedInner, hlistedRest⟩ := hlisted
    have skeleton : b₂.skeleton = b₁.skeleton := skeleton_run inner hinner
    have skipped : b₂.skippedContainers = b₁.skippedContainers :=
      skippedContainers_congr skeleton
    refine ih' ?_ (hready.congr (skeleton_enclose henter skeleton hleave)) hlistedRest hrest
    by_cases hblock : isBlockContainer tag.kind
    · rcases enter_container hblock henter with
        ⟨hcounted, rfl⟩ | ⟨hopened, b₀, kind, lines, hfills, hopens, rfl⟩
      · -- The innermost container is that of before, and events in an item or a list leave it alone.
        have receives : b.Receives := by
          cases inList with
          | false => exact hready.receives (.inl rfl)
          | true =>
            rw [hitem.2 rfl] at hcounted
            exact hready.receives (.inr (Nat.pos_of_ne_zero (beq_eq_false_iff_ne.1 hcounted)))
        have ready : b.skipContainer.Ready (tag.kind = .list) :=
          .of_receives receives (.inr (Nat.succ_pos _))
        have h₂ := ih (h.count _ _ _) ready hlistedInner hinner
        rw [leave_of_skipped hblock (by rw [skipped]; exact Nat.succ_pos _)] at hleave
        cases hleave
        exact h₂.count _ _ _
      · have h₀ : Ledger source ranges b₀ := h.fills hfills fun hnot =>
          hready.receives (.inl (Bool.eq_false_iff.2 fun htrue => hnot (hitem.2 htrue)))
        have zero : b₀.skippedContainers = 0 :=
          (skippedContainers_congr hfills.skeleton).trans (none_skipped_of_opens hopened)
        have h₂ := ih (h₀.pushContainer (Ledger.groups_of_opens hopens) lines)
          (.pushContainer hopens zero lines) hlistedInner hinner
        obtain ⟨outer, kinds, houter, hlist⟩ := hready.congr hfills.skeleton
        have kinds₂ : b₂.skeleton.1 = kind.bare :: b₀.skeleton.1 := by
          rw [skeleton]
          rfl
        refine h₂.leave hopens kinds₂ (skipped.trans zero) ?_ hleave
        exact ⟨outer, kinds, houter, by rw [hlist, hitem, and_iff_left zero]⟩
    have notItem : tag.kind ≠ .item := by
      intro hkind
      rw [hkind] at hblock
      exact hblock rfl
    have notList : (decide (tag.kind = .list)) = false := by
      refine decide_eq_false fun hkind => ?_
      rw [hkind] at hblock
      exact hblock rfl
    obtain rfl : inList = false := Bool.eq_false_iff.2 fun htrue => notItem (hitem.2 htrue)
    rw [notList] at hlistedInner
    by_cases hinline : isInlineContainer tag.kind
    · obtain ⟨b₀, hfills, hentered⟩ := enter_inlineContainer hinline henter
      have h₀ : Ledger source ranges b₀ := h.fills hfills fun _ => hready.receives (.inl rfl)
      have ready₀ : b₀.Ready false := hready.congr hfills.skeleton
      rw [leave_inlineContainer hinline] at hleave
      obtain rfl := Option.some.inj hleave
      rcases hentered with ⟨-, rfl⟩ | rfl
      · exact (ih h₀ ready₀ hlistedInner hinner).leaveFrame
      · exact (ih (h₀.count _ _ (b₀.skippedFrames + 1)) ready₀ hlistedInner hinner).leaveFrame
    · rw [Bool.not_eq_true] at hblock hinline
      have entered := fills_enter hblock hinline henter
      have ready₁ : b₁.Ready false := hready.congr entered.skeleton
      have h₁ : Ledger source ranges b₁ := h.fills entered fun _ => hready.receives (.inl rfl)
      have h₂ := ih h₁ ready₁ hlistedInner hinner
      exact h₂.fills (fills_leave hblock hinline hleave) fun _ =>
        (ready₁.congr skeleton).receives (.inl rfl)

/-- At the end nothing waits any more. -/
theorem definitions_flushDefinitions_none (hflush : b.flushDefinitions none = some b') :
    b'.definitions = [] := by
  simp only [flushDefinitions, Option.bind_eq_bind, Option.bind_eq_some_iff,
    Option.some.injEq] at hflush
  obtain ⟨⟨definitions, ranges', cursor⟩, htake, rfl⟩ := hflush
  obtain rfl := (Ledger.exists_taken htake).2 rfl
  split
  · rfl
  · exact definitions_pushBlock _ _

/-- The blocks of the one container that is open at the end are those of the document. -/
theorem groups_of_finish {document : Document} (h : Ledger source ranges b)
    (hkinds : b.skeleton.1 = [.document]) (hfinish : b.finish = some document) :
    List.Forall₂ (LinkDefinition.ReadAt source) ranges document.groups.flatten ∧
      ∀ group ∈ document.groups, group ≠ [] := by
  simp only [finish, Option.bind_eq_bind, Option.bind_eq_some_iff, Option.some.injEq] at hfinish
  obtain ⟨b₁, hclose, b₂, hflush, trailing, -, rfl⟩ := hfinish
  have flushed : Fills True b b₂ :=
    .trans (fills_closeImplicit hclose) (.flushDefinitions trivial hflush)
  have h₂ := h.fills flushed fun _ => ⟨_, _, hkinds, rfl⟩
  rw [← flushed.skeleton] at hkinds
  obtain ⟨reversed, lines, rest, hcons, hrest⟩ := exists_of_skeleton_not_list hkinds rfl
  obtain rfl := List.map_eq_nil_iff.1 hrest
  have groups : (Document.groups ⟨(if trailing.isEmpty then b₂.openBlocks
      else if b₂.openBlocks.isEmpty then [.emptyBlock { linesAfter := some trailing }]
      else setLinesAfter trailing b₂.openBlocks).reverse⟩) = stackGroups b₂.containers := by
    have only : stackGroups b₂.containers = Block.listGroups b₂.openBlocks.reverse := by
      simp [hcons, openBlocks, stackGroups, Container.groups, ContainerKind.groups]
    rw [only, Document.groups]
    split_ifs with htrailing hempty
    · rfl
    · rw [List.isEmpty_iff.1 hempty]
      rfl
    · exact listGroups_setLinesAfter _ _
  obtain ⟨taken, hqueue, hread⟩ := h₂.taken
  rw [definitions_flushDefinitions_none hflush, List.append_nil] at hqueue
  rw [groups, hqueue]
  exact ⟨hread, h₂.nonempty⟩

end Builder

/-- **Every link definition is put into the document once and in order.** Whatever balanced events a
builder is fed, if lists hold nothing but items and items stand in lists only, the definitions in the
groups of the document are those read at the ranges it is given, one for each in their order, at any
limit on nesting, and no group is empty. The document is built if the ranges fit the source and
containers are left with the ranges they are entered with. -/
theorem Document.readAt_groups (source : String) (ranges : List ByteRange) (options : ParseOptions)
    (registry : EmojiRegistry) (forest : EventForest) (hlisted : forest.Listed false) :
    (∀ document, ofEvents? source ranges options forest.events registry = some document →
      List.Forall₂ (LinkDefinition.ReadAt source.toList) ranges document.groups.flatten ∧
        ∀ group ∈ document.groups, group ≠ []) ∧
      (forest.Paired → (∀ e ∈ forest.events, e.range.Fits source.toList) →
        (∀ range ∈ ranges, range.Fits source.toList) →
          ∃ document, ofEvents? source ranges options forest.events registry = some document) := by
  constructor
  · intro document h
    obtain ⟨b, hrun, hfinish⟩ := Option.bind_eq_some_iff.1 h
    have ready : (Builder.start source.toList ranges { options with registry }).Ready false :=
      ⟨.document, [], rfl, by simp [ContainerKind.isList]⟩
    have ledger :=
      (Builder.Ledger.start source.toList ranges _).run forest ready hlisted hrun
    refine Builder.groups_of_finish ledger ?_ hfinish
    rw [Builder.skeleton_run forest hrun]
    rfl
  · intro hpaired hevents hranges
    exact EventForest.exists_document hpaired hevents hranges options registry

/-- Two definitions in an item, the second of them in a list that does not fit. -/
theorem Document.readAt_groups_folded :
    let forest : EventForest := .enclose (.list none) ⟨0, 30⟩ ⟨0, 30⟩
      (.enclose .item ⟨0, 30⟩ ⟨0, 30⟩
        (.event ⟨.text "a", ⟨2, 3⟩⟩ (by simp) (by simp)
          (.enclose (.list none) ⟨15, 30⟩ ⟨15, 30⟩
            (.enclose .item ⟨15, 30⟩ ⟨15, 30⟩
              (.enclose .paragraph ⟨28, 30⟩ ⟨28, 30⟩
                (.event ⟨.text "f", ⟨28, 29⟩⟩ (by simp) (by simp) .nil) .nil) .nil) .nil)) .nil) .nil
    let source := "- a\n  [b]: c\n  - [d]: e\n    f\n"
    let ranges : List ByteRange := [⟨6, 12⟩, ⟨17, 23⟩]
    ∃ document, ofEvents? source ranges { maxDepth := 2 } forest.events = some document ∧
      List.Forall₂ (LinkDefinition.ReadAt source.toList) ranges document.groups.flatten ∧
      ∀ group ∈ document.groups, group ≠ [] := by
  intro forest source ranges
  have listed : forest.Listed false := by simp [forest, EventForest.Listed, Tag.kind]
  have paired : forest.Paired := by simp [forest, EventForest.Paired]
  have h := readAt_groups source ranges { maxDepth := 2 } knownEmoji forest listed
  obtain ⟨document, hdocument⟩ := h.2 paired (by decide) (by decide)
  exact ⟨document, hdocument, h.1 document hdocument⟩

/-- A paragraph that stands in a list or in an item outside of any list is no part of the document,
and with it the definition before it. -/
theorem Document.readAt_groups_unlisted :
    let forest (tag : Tag) : EventForest := .enclose tag ⟨0, 9⟩ ⟨0, 9⟩
      (.enclose .paragraph ⟨7, 9⟩ ⟨7, 9⟩
        (.event ⟨.text "c", ⟨7, 8⟩⟩ (by simp) (by simp) .nil) .nil) .nil
    let source := "[a]: b\nc\n"
    (∃ document, ofEvents? source [⟨0, 6⟩] {} (forest (.list none)).events = some document ∧
      ¬List.Forall₂ (LinkDefinition.ReadAt source.toList) [⟨0, 6⟩] document.groups.flatten) ∧
    ∃ document, ofEvents? source [⟨0, 6⟩] {} (forest .item).events = some document ∧
      ¬List.Forall₂ (LinkDefinition.ReadAt source.toList) [⟨0, 6⟩] document.groups.flatten := by
  refine ⟨⟨⟨[.list {} [] .tracked]⟩, rfl, nofun⟩, ⟨⟨[]⟩, rfl, nofun⟩⟩

end MarkdownSpans
