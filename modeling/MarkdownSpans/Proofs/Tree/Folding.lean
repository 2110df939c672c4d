import MarkdownSpans.Proofs.Tree.Following

/-!
# Folding is deleting

A builder with a limit on nesting folds the containers that do not fit into those around them. What
it builds is what a builder with room enough builds of the same events without those containers
(`Document.ofEvents?_pruned`): the one follows the other, step by step, and where containers are
counted by the one the other does not see them (`Builder.keeps`).
-/

namespace MarkdownSpans

namespace Builder

variable {limit : Nat} {reach prose : Option Nat} {place : Place} {b b' f : Builder}
  {range : ByteRange}

namespace Follows

/-! ### Containers -/

/-- A block container that is opened, if the follower has room for it too. -/
theorem enter_container {tag : Tag} (h : b.Follows limit f) (htag : isBlockContainer tag.kind)
    (hopens : b.opens tag.kind = true)
    (hkeeps : EventForest.keeps limit (some b.depth) prose tag.kind = true)
    (hb : b.enter tag range = some b') : Matched limit b' (f.enter tag range) := by
  cases tag with
  | blockQuote => exact h.enterQuote hopens (of_decide_eq_true hkeeps) hb
  | list first => exact h.enterList hopens (of_decide_eq_true hkeeps) hb
  | item => exact h.enterItem (none_skipped_of_opens hopens) hb
  | _ => cases htag

theorem leave_container {kind : TagKind} (h : b.Follows limit f) (hkind : isBlockContainer kind)
    (hopened : b.skippedContainers = 0) (hb : b.leave kind range = some b') :
    Matched limit b' (f.leave kind range) := by
  unfold Builder.leave at hb ⊢
  rw [if_neg (opened_of_none_skipped hopened kind)] at hb
  rw [if_neg (opened_of_none_skipped h.none_skipped kind)]
  cases kind with
  | blockQuote => exact h.leaveQuote hb
  | list =>
    obtain rfl := Option.some.inj hb
    exact h.leaveList.matched
  | item => exact h.leaveItem hb
  | _ => cases hkind

/-! ### Leaf blocks -/

theorem enter_leafBlock {tag : Tag} (h : b.Follows limit f) (htag : tag.kind.isLeafBlock)
    (hb : b.enter tag range = some b') : Matched limit b' (f.enter tag range) := by
  cases tag with
  | paragraph => exact h.enterParagraph hb
  | heading _ | codeBlock _ | htmlBlock => exact h.beginLeaf hb
  | _ => cases htag

/-- An inline container is pushed to the leaves that both have for it. -/
theorem exists_frame {tag : Tag} (h : b.Follows limit f) (htag : isInlineContainer tag.kind)
    (henter : b.enter tag range = some b') :
    ∃ kind b₁ f₁, b.ensureLeaf range = some b₁ ∧ b' = b₁.pushFrame kind ∧ b₁.Follows limit f₁ ∧
      f.ensureLeaf range = some f₁ ∧ f.enter tag range = some (f₁.pushFrame kind) := by
  obtain ⟨kind, b₁, hkind, hensure, rfl⟩ := exists_pushFrame_of_enter htag henter
  obtain ⟨f₁, hensure', h₁⟩ := h.ensureLeaf hensure
  refine ⟨kind, b₁, f₁, hensure, rfl, h₁, hensure', ?_⟩
  rw [enter_inline htag, h.source_eq, hkind, Option.bind_some, enterFrame_eq, hensure']
  rfl

/-- Both close a paragraph at the same position: no event in it reaches further than its end. -/
theorem leave_leafBlock {kind : TagKind} (h : b.Follows limit f) (hkind : kind.isLeafBlock)
    (hlies : b.Lies b.options.maxDepth (Lies.reachOf range kind) place)
    (hplace : kind = .paragraph → place.closed = .prose 0) (hb : b.leave kind range = some b') :
    Matched limit b' (f.leave kind range) := by
  cases kind with
  | paragraph =>
    refine h.closeParagraph (fun leaf leaf' hleaf hleaf' hresembles => ?_) hb
    obtain ⟨n, rfl⟩ := Place.exists_prose_of_closed (hplace rfl)
    obtain ⟨⟨s, hs, hsort, -, hstop⟩, -⟩ := hlies
    obtain rfl : leaf.shape = s := by simpa [shape, hleaf] using hs
    have hreach : leaf.stop ≤ max range.stop leaf.start := hstop range.stop rfl
    have hprose : leaf.kind.sort = .prose := hsort
    obtain ⟨hroot, hframes⟩ := hresembles.root_frames (by simp [hprose])
    refine ⟨?_, ?_, by rw [Leaf.inlines, Leaf.inlines, hroot, hframes]⟩
    · cases hresembles with
      | implicit _ => rfl
      | prose _ hsame _ _ =>
        rw [hsame]
        rfl
      | verbatim h _ _ => simp [hprose] at h
    · cases hresembles with
      | implicit _ => rfl
      | prose _ _ hstart hle => omega
      | verbatim h _ _ => simp [hprose] at h
  | heading => exact h.closeHeading hb
  | codeBlock => exact h.closeCode hb
  | htmlBlock => exact h.closeHtml hb
  | _ => cases hkind

end Follows

/-- A builder and its follower between events. -/
structure Tracks (limit : Nat) (reach : Option Nat) (place : Place) (b f : Builder) : Prop where
  follows : b.Follows limit f
  lies : b.Lies b.options.maxDepth reach place
  opened : b.containers ≠ []
  counted : place ≠ .verbatim → f.skippedFrames = 0

namespace Tracks

variable {b₂ b₃ f₁ : Builder} {tag : Tag} {range' : ByteRange} {content : EventForest}

/-- The follower of a builder that has run over balanced events. -/
theorem of_run {forest forest' : EventForest} {f' : Builder} (h : Tracks limit reach place b f)
    (hsuits : forest.Suits b.options.maxDepth limit reach b.keptDepth place)
    (hrun : b.run forest.events = some b') (hrun' : f.run forest'.events = some f')
    (hfollows : b'.Follows limit f') :
    Tracks limit reach (forest.past b.options.maxDepth b.keptDepth place) b' f' := by
  refine ⟨hfollows, h.lies.run forest h.opened hsuits.foldable hsuits.stops hrun,
    containers_ne_nil (skeleton_run forest hrun) h.opened, fun hplace => ?_⟩
  have closed := EventForest.closed_past forest hsuits.foldable
  refine (skippedFrames_congr (skeleton_run forest' hrun')).trans (h.counted ?_)
  rintro rfl
  exact hplace (Place.closed_eq_verbatim.1 closed)

theorem ensureLeaf {f' : Builder} (h : Tracks limit reach place b f)
    (hrange : ∀ r ∈ reach, range.stop ≤ r) (hb : b.ensureLeaf range = some b')
    (hf : f.ensureLeaf range = some f') (hfollows : b'.Follows limit f') :
    Tracks limit reach place b' f' := by
  have options : b'.options = b.options := congrArg Prod.snd (reading_ensureLeaf hb)
  refine ⟨hfollows, ?_, containers_ne_nil (fills_ensureLeaf hb).skeleton h.opened, fun hplace => ?_⟩
  · rw [options]
    exact h.lies.ensureLeaf hrange hb
  · exact (skippedFrames_congr (fills_ensureLeaf hf).skeleton).trans (h.counted hplace)

/-- An inline container that both enter, and that both open if it makes a difference. -/
theorem pushFrame {s : LeafShape} (h : Tracks limit reach place b f) (hshape : b.shape = some s)
    (hroom : place.prose?.all (· < b.options.maxDepth) = true)
    (houtside : ∀ n, place = .outside n → n < b.options.maxDepth) (hlimit : place.frames < limit)
    (kind : FrameKind) :
    (b.pushFrame kind).Follows limit (f.pushFrame kind) ∧ (place ≠ .verbatim →
      (b.pushFrame kind).skippedFrames = 0 ∧ (f.pushFrame kind).skippedFrames = 0) := by
  obtain ⟨leaf, hleaf, rfl⟩ := Option.map_eq_some_iff.1 hshape
  by_cases hplace : place = .verbatim
  · subst hplace
    obtain ⟨s, hs, hsort⟩ := h.lies
    obtain rfl : leaf.shape = s := Option.some.inj (hshape.symm.trans hs)
    exact ⟨h.follows.of_verbatim hleaf hsort (changesInlines_pushFrame kind b)
      (changesInlines_pushFrame kind f), fun hne => absurd rfl hne⟩
  obtain ⟨leaf', hleaf', hresembles⟩ := h.follows.exists_leaf hleaf
  obtain ⟨hsort, hframes⟩ := h.lies.frames_le hshape hplace
  have hfull : b.framesFull = false := by
    rw [h.lies.framesFull hshape hplace houtside, hroom]
    rfl
  have hfull' : f.framesFull = false := by
    have same : leaf'.frames = leaf.frames := (hresembles.root_frames hsort).2
    have frames : leaf'.frames.length < limit := by
      rw [same]
      exact Nat.lt_of_le_of_lt hframes hlimit
    simp [Builder.framesFull, h.counted hplace, hleaf', h.follows.maxDepth_eq, frames]
  refine ⟨h.follows.pushFrame_opened hfull hfull' kind, fun _ => ⟨?_, ?_⟩⟩
  · rw [skippedFrames_pushFrame hfull]
    exact skippedFrames_of_framesFull hfull
  · rw [skippedFrames_pushFrame hfull']
    exact skippedFrames_of_framesFull hfull'

/-- Where there is room for an inline container, both enter it. -/
theorem enter_inline (h : Tracks limit reach place b f) (htag : isInlineContainer tag.kind)
    (hrange : ∀ r ∈ reach, range.stop ≤ r)
    (hroom : place.prose?.all (· < b.options.maxDepth) = true)
    (houtside : ∀ n, place = .outside n → n < b.options.maxDepth) (hlimit : place.frames < limit)
    (henter : b.enter tag range = some b') :
    ∃ f', f.enter tag range = some f' ∧ Tracks limit reach place.deeper b' f' ∧
      (place ≠ .verbatim → b'.skippedFrames = 0) := by
  have options : b'.options = b.options := congrArg Prod.snd (reading_enter henter)
  have lies := h.lies.enter_inline htag houtside hrange henter
  have opened := containers_ne_nil_enter_inline htag h.opened henter
  obtain ⟨kind, b₁, f₁, hensure, rfl, h₁, hensure', henter'⟩ := h.follows.exists_frame htag henter
  have tracks := h.ensureLeaf hrange hensure hensure' h₁
  have options₁ : b₁.options = b.options := congrArg Prod.snd (reading_ensureLeaf hensure)
  rw [← options₁] at hroom houtside
  rw [← options] at lies
  obtain ⟨hfollows, hskipped⟩ :=
    tracks.pushFrame (shape_ensureLeaf hensure) hroom houtside hlimit kind
  refine ⟨_, henter', ⟨hfollows, lies, opened, fun hplace => (hskipped ?_).2⟩,
    fun hplace => (hskipped hplace).1⟩
  rintro rfl
  exact hplace rfl

/-- Where there is no room for an inline container, it is counted; the follower does not see it. -/
theorem enter_counted {n : Nat} (h : Tracks limit reach (.prose n) b f)
    (htag : isInlineContainer tag.kind) (hrange : ∀ r ∈ reach, range.stop ≤ r)
    (hfull : b.options.maxDepth ≤ n) (henter : b.enter tag range = some b') :
    Tracks limit reach (Place.prose n).deeper b' f ∧ 0 < b'.skippedFrames := by
  have options : b'.options = b.options := congrArg Prod.snd (reading_enter henter)
  have lies := h.lies.enter_inline htag nofun hrange henter
  have opened := containers_ne_nil_enter_inline htag h.opened henter
  obtain ⟨kind, b₁, f₁, hensure, rfl, h₁, hensure', -⟩ := h.follows.exists_frame htag henter
  have options₁ : b₁.options = b.options := congrArg Prod.snd (reading_ensureLeaf hensure)
  have lies₁ := (h.ensureLeaf hrange hensure hensure' h₁).lies
  have hfull₁ : b₁.framesFull = true := by
    rw [lies₁.framesFull (shape_ensureLeaf hensure) nofun nofun, options₁]
    simpa [Place.prose?] using hfull
  obtain ⟨⟨s, hs, hsort, -, -⟩, -⟩ := h.lies
  obtain ⟨leaf, hleaf, rfl⟩ := Option.map_eq_some_iff.1 hs
  have hprose : leaf.kind.sort = .prose := hsort
  rw [← options] at lies
  refine ⟨⟨?_, lies, opened, fun _ => h.counted nofun⟩, ?_⟩
  · exact h.follows.pushFrame_counted hleaf (by simp [hprose]) hensure hfull₁ kind
  · rw [Builder.pushFrame, if_pos hfull₁]
    exact Nat.succ_pos _

/-- Leaving an inline container that both have entered. -/
theorem leaveFrame (h : Tracks limit reach place b f)
    (hopened : place ≠ .verbatim → b.skippedFrames = 0) :
    b.leaveFrame.Follows limit f.leaveFrame := by
  cases place with
  | outside n => exact h.follows.leaveFrame_opened (hopened nofun) (h.counted nofun)
  | prose n => exact h.follows.leaveFrame_opened (hopened nofun) (h.counted nofun)
  | verbatim =>
    obtain ⟨s, hs, hsort⟩ := h.lies
    obtain ⟨leaf, hleaf, rfl⟩ := Option.map_eq_some_iff.1 hs
    exact h.follows.of_verbatim hleaf hsort (changesInlines_leaveFrame b)
      (changesInlines_leaveFrame f)

/-- A run of the follower over a container that it enters too. -/
theorem matched_enclose (henter : f.enter tag range = some f₁)
    (hinner : Matched limit b₂ (f₁.run content.events))
    (hleave : ∀ f₂, f₁.run content.events = some f₂ → b₂.Follows limit f₂ →
      Matched limit b₃ (f₂.leave tag.kind range')) :
    Matched limit b₃ (f.run (EventForest.enclose tag range range' content .nil).events) := by
  obtain ⟨f₂, hrun, h₂⟩ := hinner
  obtain ⟨f₃, hleave', h₃⟩ := hleave f₂ hrun h₂
  refine ⟨f₃, ?_, h₃⟩
  rw [EventForest.run_enclose, henter, Option.bind_some, hrun, Option.bind_some, hleave']
  rfl

end Tracks

/-- The follower keeps up with a run over a forest if it runs over what is left of the forest. -/
def Keeps (limit : Nat) (forest : EventForest) : Prop :=
  ∀ ⦃reach place b b' f⦄, Tracks limit reach place b f →
    forest.Suits b.options.maxDepth limit reach b.keptDepth place → b.run forest.events = some b' →
    Matched limit b' (f.run (forest.pruned b.options.maxDepth b.keptDepth place.prose?).events)

namespace Keeps

variable {tag : Tag} {range' : ByteRange} {inner rest : EventForest}

/-- A container of blocks. -/
theorem container (hinner : Keeps limit inner) (htag : isBlockContainer tag.kind) :
    Keeps limit (.enclose tag range range' inner .nil) := by
  intro reach place b b' f h hsuits hall
  obtain ⟨b₁, b₂, b₃, henter, hrun, hleave, hnil⟩ := EventForest.exists_of_run_enclose hall
  cases hnil
  have options₁ : b₁.options = b.options := congrArg Prod.snd (reading_enter henter)
  have hskipped := skipped_of_enter htag henter (skeleton_run inner hrun)
  have depth₁ := keptDepth_enter htag h.opened henter place.prose?
  have lies₁ := h.lies.enter_container htag henter
  have opened₁ := containers_ne_nil_enter htag h.opened henter
  have content := hsuits.content (fun r hr e he => hsuits.stops r hr e
    (by simp [EventForest.events, he]))
  rw [keeps_container htag, ← depth₁, ← options₁] at content
  rw [EventForest.pruned, keeps_container htag, ← depth₁,
    EventForest.proseWithin_enter (b.opens tag.kind), ← options₁]
  rw [← options₁] at lies₁
  cases hopens : b.opens tag.kind with
  | false =>
    -- The follower does not see a container that is counted.
    rw [hopens] at hskipped content lies₁
    obtain rfl : b₁ = b.skipContainer := by
      rcases Builder.enter_container htag henter with ⟨-, h₁⟩ | ⟨hopens', -⟩
      · exact h₁
      · cases hopens.symm.trans hopens'
    rw [leave_of_skipped htag hskipped] at hleave
    cases hleave
    have tracks : Tracks limit reach (place.enter false tag.kind) b.skipContainer f := by
      refine ⟨h.follows.count _ _, lies₁, opened₁, ?_⟩
      rw [Place.enter_container htag]
      exact h.counted
    obtain ⟨f₂, hrun', h₂⟩ := hinner tracks content hrun
    refine ⟨f₂, ?_, h₂.count _ _⟩
    simpa [EventForest.pruned, EventForest.events] using hrun'
  | true =>
    rw [hopens] at hskipped content lies₁
    have depth : b.keptDepth = some b.depth := if_pos (none_skipped_of_opens hopens)
    rw [depth] at hsuits
    obtain ⟨f₁, henter', h₁⟩ :=
      h.follows.enter_container htag hopens (hsuits.keeps htag place.prose?) henter
    have tracks : Tracks limit reach (place.enter true tag.kind) b₁ f₁ := by
      refine ⟨h₁, lies₁, opened₁, fun hplace => ?_⟩
      refine (skippedFrames_enter_container htag henter').trans (h.counted ?_)
      rintro rfl
      exact hplace (Place.enter_container htag true _)
    exact Tracks.matched_enclose henter' (hinner tracks content hrun)
      fun f₂ _ h₂ => h₂.leave_container htag hskipped hleave

/-- What is left of a container that is neither one of blocks nor deleted. -/
theorem pruned_single {limit : Nat} {depth prose : Option Nat}
    (htag : isBlockContainer tag.kind = false)
    (hkeeps : EventForest.keeps limit depth prose tag.kind = true) :
    (EventForest.enclose tag range range' inner .nil).pruned limit depth prose =
      .enclose tag range range'
        (inner.pruned limit depth (EventForest.proseWithin prose tag.kind)) .nil := by
  rw [EventForest.pruned, hkeeps, EventForest.depthWithin_of_not_container htag]
  rfl

/-- A leaf block. -/
theorem leafBlock (hinner : Keeps limit inner) (htag : tag.kind.isLeafBlock) :
    Keeps limit (.enclose tag range range' inner .nil) := by
  intro reach place b b' f h hsuits hall
  obtain ⟨b₁, b₂, b₃, henter, hrun, hleave, hnil⟩ := EventForest.exists_of_run_enclose hall
  cases hnil
  have hblock := TagKind.isBlockContainer_of_isLeafBlock htag
  have hinline := TagKind.isInlineContainer_of_isLeafBlock htag
  have keeps := EventForest.keeps_leafBlock htag b.options.maxDepth b.keptDepth place.prose?
  obtain ⟨n, rfl⟩ := hsuits.foldable.1 htag
  have options₁ : b₁.options = b.options := congrArg Prod.snd (reading_enter henter)
  have fills := fills_enter hblock hinline henter
  have depth₁ : b₁.keptDepth = b.keptDepth := keptDepth_congr fills.skeleton
  -- The inlines of a paragraph do not reach beyond it.
  have stops : ∀ r ∈ Lies.reachOf range' tag.kind, ∀ e ∈ inner.events,
      e.event.isInline = true → e.range.stop ≤ r := by
    intro r hr
    cases tag with
    | paragraph =>
      cases hr
      exact hsuits.foldable.2.2.1 rfl
    | heading _ | codeBlock _ | htmlBlock => cases hr
    | _ => cases htag
  have content := hsuits.content stops
  rw [keeps, EventForest.depthWithin_of_not_container hblock, ← depth₁, ← options₁] at content
  rw [pruned_single hblock keeps, ← depth₁, ← options₁, EventForest.proseWithin_enter true]
  obtain ⟨f₁, henter', h₁⟩ := h.follows.enter_leafBlock htag henter
  have tracks : Tracks limit (Lies.reachOf range' tag.kind)
      (Place.enter true (.outside n) tag.kind) b₁ f₁ := by
    refine ⟨h₁, ?_, containers_ne_nil fills.skeleton h.opened, fun _ => ?_⟩
    · rw [options₁]
      exact h.lies.enter_leafBlock htag range' true henter
    · exact (skippedFrames_congr (fills_enter hblock hinline henter').skeleton).trans
        (h.counted nofun)
  refine Tracks.matched_enclose henter' (hinner tracks content hrun) fun f₂ hrun' h₂ => ?_
  refine h₂.leave_leafBlock htag (tracks.of_run content hrun hrun' h₂).lies (fun hparagraph => ?_)
    hleave
  rw [EventForest.closed_past inner content.foldable, hparagraph]
  rfl

/-- A container of inlines, which the follower enters where there is room for it. -/
theorem inline (hinner : Keeps limit inner) (htag : isInlineContainer tag.kind) :
    Keeps limit (.enclose tag range range' inner .nil) := by
  intro reach place b b' f h hsuits hall
  obtain ⟨b₁, b₂, b₃, henter, hrun, hleave, hnil⟩ := EventForest.exists_of_run_enclose hall
  cases hnil
  have hblock := TagKind.isBlockContainer_of_isInlineContainer htag
  have keeps := EventForest.keeps_inline htag b.options.maxDepth b.keptDepth place.prose?
  have stops := hsuits.stops
  simp only [EventForest.events, List.mem_cons, List.mem_append] at stops
  have reaches : ∀ r ∈ reach, range.stop ≤ r := fun r hr => stops r hr _ (.inl rfl) htag
  have depth₁ := keptDepth_enter_inline htag henter
  have options₁ : b₁.options = b.options := congrArg Prod.snd (reading_enter henter)
  have counted := skippedFrames_congr (skeleton_run inner hrun)
  have content := hsuits.content fun r hr e he => stops r hr e (.inr (.inl he))
  rw [EventForest.depthWithin_of_not_container hblock, Place.enter_inline htag, ← depth₁,
    ← options₁] at content
  have within : EventForest.proseWithin place.prose? tag.kind = place.deeper.prose? := by
    rw [EventForest.proseWithin_enter true, Place.enter_inline htag]
  rw [leave_inlineContainer htag] at hleave
  cases hleave
  by_cases hroom : place.prose?.all (· < b.options.maxDepth)
  · have limits : place.frames < limit := by
      have := hsuits.inlines
      simp only [EventForest.inlineLevels, htag, if_true] at this
      omega
    obtain ⟨f₁, henter', tracks, hopened⟩ :=
      h.enter_inline htag reaches hroom (hsuits.foldable.2.1 htag) limits henter
    rw [pruned_single hblock (keeps.trans hroom), within, ← depth₁, ← options₁]
    refine Tracks.matched_enclose henter' (hinner tracks content hrun) fun f₂ hrun' h₂ => ?_
    rw [leave_inlineContainer htag]
    refine ((tracks.of_run content hrun hrun' h₂).leaveFrame fun hplace =>
      counted.trans (hopened ?_)).matched
    rintro rfl
    exact hplace (Place.closed_eq_verbatim.1 (EventForest.closed_past inner content.foldable))
  · rw [Bool.not_eq_true] at hroom
    obtain ⟨n, rfl⟩ : ∃ n, place = .prose n := by
      cases place with
      | prose n => exact ⟨n, rfl⟩
      | outside _ | verbatim => cases hroom
    obtain ⟨tracks, hskipped⟩ :=
      h.enter_counted htag reaches (by simpa [Place.prose?] using hroom) henter
    obtain ⟨f₂, hrun', h₂⟩ := hinner tracks content hrun
    rw [leaveFrame_of_skipped (counted.symm ▸ hskipped)]
    refine ⟨f₂, ?_, h₂.count _ _⟩
    rw [EventForest.pruned, keeps, hroom, EventForest.depthWithin_of_not_container hblock, within,
      ← depth₁, ← options₁]
    simpa [EventForest.pruned, EventForest.events] using hrun'

/-- A container that documents have no place for. -/
theorem other (hinner : Keeps limit inner) :
    Keeps limit (.enclose .other range range' inner .nil) := by
  intro reach place b b' f h hsuits hall
  obtain ⟨b₁, b₂, b₃, henter, hrun, hleave, hnil⟩ := EventForest.exists_of_run_enclose hall
  cases hnil
  cases henter
  cases hleave
  rw [pruned_single rfl rfl]
  exact Tracks.matched_enclose rfl
    (hinner h (hsuits.content fun r hr e he => hsuits.stops r hr e
      (by simp [EventForest.events, he])) hrun) fun f₂ _ h₂ => h₂.matched

/-- A container and the trees behind it. -/
theorem enclose (hsingle : Keeps limit (.enclose tag range range' inner .nil))
    (hrest : Keeps limit rest) : Keeps limit (.enclose tag range range' inner rest) := by
  intro reach place b b' f h hsuits hall
  obtain ⟨b₁, b₂, b₃, henter, hrun, hleave, hbehind⟩ := EventForest.exists_of_run_enclose hall
  have hrun₃ : b.run (EventForest.enclose tag range range' inner .nil).events = some b₃ := by
    rw [EventForest.run_enclose, henter, Option.bind_some, hrun, Option.bind_some, hleave]
    rfl
  obtain ⟨f₃, hf₃, h₃⟩ := hsingle h hsuits.single hrun₃
  have tracks := h.of_run hsuits.single hrun₃ hf₃ h₃
  have others := hsuits.others
  have options₃ : b₃.options = b.options := congrArg Prod.snd (reading_run hrun₃)
  have depth₃ : b₃.keptDepth = b.keptDepth := keptDepth_congr (skeleton_run _ hrun₃)
  have prose₃ := EventForest.prose?_past _ hsuits.single.foldable
  rw [← options₃, ← depth₃] at others tracks prose₃
  obtain ⟨f', hf', h'⟩ := hrest tracks others hbehind
  refine ⟨f', ?_, h'⟩
  rw [prose₃, options₃, depth₃] at hf'
  rw [EventForest.events_pruned, run_append, hf₃]
  exact hf'

/-- An event and the trees behind it. -/
theorem event {e : RangedEvent} {henter : ∀ tag, e.event ≠ .enter tag}
    {hleave : ∀ kind, e.event ≠ .leave kind} (hrest : Keeps limit rest) :
    Keeps limit (.event e henter hleave rest) := by
  intro reach place b b' f h hsuits hall
  obtain ⟨b₁, hstep, hbehind⟩ := EventForest.exists_of_run_event hall
  obtain ⟨f₁, hf₁, h₁⟩ := h.follows.step henter hleave hstep
  have options₁ : b₁.options = b.options := congrArg Prod.snd (reading_step hstep)
  have skeleton₁ := (fills_step henter hleave hstep).skeleton
  have depth₁ : b₁.keptDepth = b.keptDepth := keptDepth_congr skeleton₁
  have lies₁ := h.lies.step henter hleave (fun r hr => hsuits.stops r hr e (.head _)) hstep
  have behind := hsuits.behind
  rw [← options₁, ← depth₁] at behind
  rw [← options₁] at lies₁
  have tracks : Tracks limit reach (place.behind e.event) b₁ f₁ := by
    refine ⟨h₁, lies₁, containers_ne_nil skeleton₁ h.opened, fun hplace => ?_⟩
    refine (skippedFrames_congr (fills_step henter hleave hf₁).skeleton).trans (h.counted ?_)
    rintro rfl
    exact hplace (Place.closed_eq_verbatim.1 (Place.closed_behind _ e.event))
  obtain ⟨f', hf', h'⟩ := hrest tracks behind hbehind
  refine ⟨f', ?_, h'⟩
  rw [options₁, depth₁, Place.prose?_behind] at hf'
  rw [EventForest.pruned, EventForest.events, run_cons, hf₁]
  exact hf'

end Keeps

/-- **The follower keeps up.** While a builder runs over balanced events, counting containers it
does not open, its follower runs over those events without what belongs to these containers. -/
theorem keeps (limit : Nat) (forest : EventForest) : Keeps limit forest := by
  induction forest with
  | nil =>
    intro reach place b b' f h hsuits hall
    cases hall
    exact h.follows.matched
  | event e henter hleave rest ih => exact .event ih
  | enclose tag range range' inner rest ih ih' =>
    refine .enclose ?_ ih'
    rcases tag.classes with hblock | hinline | hleafBlock | rfl
    · exact ih.container hblock
    · exact ih.inline hinline
    · exact ih.leafBlock hleafBlock
    · exact ih.other

/-! ### Documents -/

theorem Follows.finish {document : Document} (h : b.Follows limit f)
    (hb : b.finish = some document) : f.finish = some document := by
  simp only [Builder.finish, Option.bind_eq_bind, Option.bind_eq_some_iff] at hb
  obtain ⟨b₁, hclose, b₂, hflush, trailing, htrailing, hdocument⟩ := hb
  obtain ⟨f₁, hclose', h₁⟩ := h.closeImplicit hclose
  obtain ⟨f₂, hflush', h₂⟩ := h₁.flushDefinitions hflush
  rw [← h₂.source_eq, ← h₂.cursor_eq] at htrailing
  have blocks : f₂.openBlocks = b₂.openBlocks := by rw [openBlocks, h₂.containers_eq, openBlocks]
  simp only [Builder.finish, hclose', hflush', htrailing, blocks, Option.bind_eq_bind,
    Option.bind_some]
  exact hdocument

/-- Builders that start with different limits. -/
theorem Tracks.start (source : List Char) (definitions : List ByteRange) (options : BuildOptions)
    (most : Nat) :
    Tracks most none (.outside 0) (start source definitions options)
      (start source definitions { options with maxDepth := most }) :=
  ⟨⟨none, 0, rfl, .none⟩, .of_leaf_none rfl rfl, List.cons_ne_nil _ _, fun _ => rfl⟩

end Builder

/-- **Folding is deleting.** A limit on nesting folds the containers that do not fit it: what is
built of balanced events is what is built of these events without the ones that enter and leave such
containers, trivia included, with any limit that is large enough to fold nothing. Provided no leaf
block stands in another one, the inline containers outside of leaf blocks fit the limit, and the
inlines of a paragraph lie in its range. A document is built if the ranges fit the source. -/
theorem Document.ofEvents?_pruned (source : String) (definitions : List ByteRange)
    (options : ParseOptions) (registry : EmojiRegistry) (most : Nat) (forest : EventForest)
    (hfoldable : forest.Foldable options.maxDepth (some 0) (.outside 0))
    (hlevels : forest.levels ≤ most) (hinlines : forest.inlineLevels ≤ most) :
    (∀ document, ofEvents? source definitions options forest.events registry = some document →
      ofEvents? source definitions { options with maxDepth := most }
        (forest.pruned options.maxDepth (some 0) none).events registry = some document) ∧
      (forest.Paired → (∀ e ∈ forest.events, e.range.Fits source.toList) →
        (∀ range ∈ definitions, range.Fits source.toList) →
        ∃ document,
          ofEvents? source definitions options forest.events registry = some document) := by
  refine ⟨fun document h => ?_, fun hpaired hevents hdefinitions =>
    EventForest.exists_document hpaired hevents hdefinitions options registry⟩
  obtain ⟨b, hrun, hfinish⟩ := Option.bind_eq_some_iff.1 h
  have suits : forest.Suits options.maxDepth most none (some 0) (.outside 0) := by
    refine ⟨hfoldable, nofun, ?_, by rwa [Place.frames, Nat.zero_add]⟩
    rintro k hk
    cases hk
    rwa [Nat.zero_add]
  obtain ⟨f, hrun', hfollows⟩ :=
    Builder.keeps most forest (.start source.toList definitions ⟨options, registry⟩ most) suits
      hrun
  exact Option.bind_eq_some_iff.2 ⟨f, hrun', hfollows.finish hfinish⟩

/-- A quote in a quote and a strong text in an emphasis, none of which fits. -/
theorem Document.ofEvents?_pruned_quote :
    let forest : EventForest := .enclose .blockQuote ⟨0, 20⟩ ⟨0, 20⟩
      (.enclose .paragraph ⟨2, 12⟩ ⟨2, 12⟩
        (.enclose .emphasis ⟨2, 11⟩ ⟨2, 11⟩
          (.event ⟨.text "a ", ⟨3, 5⟩⟩ (by simp) (by simp)
            (.enclose .strong ⟨5, 10⟩ ⟨5, 10⟩
              (.event ⟨.text "b", ⟨7, 8⟩⟩ (by simp) (by simp) .nil) .nil)) .nil)
        (.enclose .blockQuote ⟨16, 20⟩ ⟨16, 20⟩
          (.enclose .paragraph ⟨18, 20⟩ ⟨18, 20⟩
            (.event ⟨.text "c", ⟨18, 19⟩⟩ (by simp) (by simp) .nil) .nil) .nil)) .nil
    let source := "> *a **b***\n>\n> > c\n"
    ∃ document, ofEvents? source [] { maxDepth := 1 } forest.events = some document ∧
      ofEvents? source [] { maxDepth := 2 } (forest.pruned 1 (some 0) none).events =
        some document := by
  intro forest source
  have foldable : forest.Foldable 1 (some 0) (.outside 0) := by
    simp [forest, EventForest.Foldable, EventForest.events, TagKind.isLeafBlock, Tag.kind,
      Builder.isInlineContainer, EventForest.keeps, EventForest.past, Place.enter, Place.leave,
      Place.closed, Place.deeper, Place.behind]
  have h := ofEvents?_pruned source [] { maxDepth := 1 } knownEmoji 2 forest foldable (by decide)
    (by decide)
  obtain ⟨document, hdocument⟩ := h.2 (by simp [forest, EventForest.Paired]) (by decide) (by simp)
  exact ⟨document, hdocument, h.1 document hdocument⟩

/-- Where a paragraph stands in another one, inlines behind it stand in a paragraph of their own.
The inline containers of the outer one are not open in it: strong text that does not fit is kept. -/
theorem Document.ofEvents?_pruned_ne :
    let forest : EventForest := .enclose .paragraph ⟨0, 10⟩ ⟨0, 10⟩
      (.enclose .emphasis ⟨0, 9⟩ ⟨0, 9⟩
        (.enclose .paragraph ⟨1, 3⟩ ⟨1, 3⟩
          (.event ⟨.text "a", ⟨1, 2⟩⟩ (by simp) (by simp) .nil)
          (.enclose .strong ⟨3, 8⟩ ⟨3, 8⟩
            (.event ⟨.text "b", ⟨5, 6⟩⟩ (by simp) (by simp) .nil) .nil)) .nil) .nil
    let source := "*a\n**b***\n"
    let document (inline : Inline) : Document :=
      ⟨[.paragraph [.literal "a", .lineBreak .lf false] .tracked,
        .paragraph [inline, .lineBreak .lf false] .tracked]⟩
    forest.levels ≤ 2 ∧ forest.inlineLevels ≤ 2 ∧
      ofEvents? source [] { maxDepth := 1, emoji := false } forest.events =
        some (document (.emphasis '*' 2 [.literal "b"])) ∧
      ofEvents? source [] { maxDepth := 2, emoji := false }
        (forest.pruned 1 (some 0) none).events = some (document (.literal "b")) ∧
      document (.emphasis '*' 2 [.literal "b"]) ≠ document (.literal "b") := by
  refine ⟨by decide, by decide, rfl, rfl, ?_⟩
  simp

end MarkdownSpans
