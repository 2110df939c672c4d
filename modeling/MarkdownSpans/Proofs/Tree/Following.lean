import MarkdownSpans.Proofs.Tree.LeafShape

/-!
# Builders that follow one another

One builder follows another one with a different limit on nesting: it has the same containers open
and waits for the same definitions, at the same cursor, but it counts no block containers, and its
leaf may reach less far (`Builder.Follows`). Each operation that does not look at the limit leads
both to builders of which one follows the other again.
-/

namespace MarkdownSpans

namespace Leaf

/-- A leaf in the place of another one: in a paragraph or heading it may reach less far, and in a
block of code or markup inlines make no difference. -/
inductive Resembles : Leaf → Leaf → Prop
  | implicit {leaf : Leaf} (h : leaf.kind.sort = .implicit) : Resembles leaf leaf
  | prose {leaf leaf' : Leaf} (h : leaf.kind.sort = .prose)
    (hsame : leaf' = leaf.stopAt leaf'.stop) (hstart : leaf.start ≤ leaf'.stop)
    (hstop : leaf'.stop ≤ leaf.stop) : Resembles leaf leaf'
  | verbatim {leaf leaf' : Leaf} (h : leaf.kind.sort = .verbatim) (hkind : leaf'.kind = leaf.kind)
    (hlines : leaf'.linesBefore = leaf.linesBefore) : Resembles leaf leaf'

namespace Resembles

variable {leaf leaf' : Leaf}

theorem kind (h : leaf.Resembles leaf') : leaf'.kind = leaf.kind := by
  cases h with
  | implicit _ => rfl
  | prose _ hsame _ _ => rw [hsame, stopAt_kind]
  | verbatim _ hkind _ => exact hkind

theorem linesBefore (h : leaf.Resembles leaf') : leaf'.linesBefore = leaf.linesBefore := by
  cases h with
  | implicit _ => rfl
  | prose _ hsame _ _ =>
    rw [hsame]
    rfl
  | verbatim _ _ hlines => exact hlines

/-- The inlines of a paragraph or heading are the same. -/
theorem root_frames (h : leaf.Resembles leaf') (hsort : leaf.kind.sort ≠ .verbatim) :
    leaf'.root = leaf.root ∧ leaf'.frames = leaf.frames := by
  cases h with
  | implicit _ => exact ⟨rfl, rfl⟩
  | prose _ hsame _ _ =>
    rw [hsame]
    exact ⟨rfl, rfl⟩
  | verbatim h _ _ => exact absurd h hsort

/-- A leaf that was just opened. -/
theorem opened (kind : LeafKind) (start : Nat) (lines : Option (List Line)) :
    Resembles { kind, start, stop := start, linesBefore := lines }
      { kind, start, stop := start, linesBefore := lines } := by
  cases hsort : kind.sort with
  | implicit => exact .implicit hsort
  | prose => exact .prose hsort rfl (Nat.le_refl start) (Nat.le_refl start)
  | verbatim => exact .verbatim hsort rfl rfl

theorem extend (h : leaf.Resembles leaf') (n : Nat) :
    Resembles { leaf with stop := max leaf.stop n } { leaf' with stop := max leaf'.stop n } := by
  cases h with
  | implicit h => exact .implicit h
  | prose h hsame hstart hstop =>
    have below : max leaf'.stop n ≤ max leaf.stop n := by omega
    refine .prose h ?_ (Nat.le_trans hstart (Nat.le_max_left ..)) below
    rw [hsame]
    rfl
  | verbatim h hkind hlines => exact .verbatim h hkind hlines

/-- The leaf that is followed may reach further. -/
theorem extend_left (h : leaf.Resembles leaf') (hsort : leaf.kind.sort ≠ .implicit) (n : Nat) :
    Resembles { leaf with stop := max leaf.stop n } leaf' := by
  cases h with
  | implicit h => exact absurd h hsort
  | prose h hsame hstart hstop =>
    exact .prose h hsame hstart (Nat.le_trans hstop (Nat.le_max_left ..))
  | verbatim h hkind hlines => exact .verbatim h hkind hlines

/-- A change of the inlines in both leaves. -/
theorem map (h : leaf.Resembles leaf') {f : Leaf → Leaf}
    (hf : ∀ leaf, ∃ root frames, f leaf = { leaf with root, frames })
    (hstop : ∀ stop, f (leaf.stopAt stop) = (f leaf).stopAt stop) :
    (f leaf).Resembles (f leaf') := by
  obtain ⟨root, frames, hmap⟩ := hf leaf
  obtain ⟨root', frames', hmap'⟩ := hf leaf'
  have stop' : (f leaf').stop = leaf'.stop := by rw [hmap']
  cases h with
  | implicit h =>
    refine .implicit ?_
    rw [hmap]
    exact h
  | prose h hsame hstart hle =>
    have same : f leaf' = (f leaf).stopAt (f leaf').stop := by rw [stop', ← hstop, ← hsame]
    rw [hmap] at same ⊢
    exact .prose h same (by rw [stop']; exact hstart) (by rw [stop']; exact hle)
  | verbatim h hkind hlines =>
    rw [hmap, hmap']
    exact .verbatim h hkind hlines

theorem push (h : leaf.Resembles leaf') (inline : Inline) :
    (leaf.push inline).Resembles (leaf'.push inline) :=
  h.map (fun leaf => leaf.exists_push inline) fun stop => pushAll_stopAt leaf [inline] stop

theorem openFrame (h : leaf.Resembles leaf') (kind : FrameKind) :
    (leaf.openFrame kind).Resembles (leaf'.openFrame kind) :=
  h.map (fun leaf => ⟨leaf.root, { kind } :: leaf.frames, rfl⟩) fun _ => rfl

theorem closeFrame (h : leaf.Resembles leaf') : leaf.closeFrame.Resembles leaf'.closeFrame := by
  refine h.map (fun leaf => leaf.exists_closeFrame) fun stop => ?_
  cases hframes : leaf.frames with
  | nil => simp [Leaf.closeFrame, hframes]
  | cons frame rest =>
    simp only [Leaf.closeFrame, stopAt_frames, hframes]
    exact pushAll_stopAt { leaf with frames := rest } _ stop

/-- Text that is added to a block of code or markup. -/
theorem setKind (h : leaf.Resembles leaf') {kind : LeafKind} (hsort : kind.sort = .verbatim) :
    Resembles { leaf with kind } { leaf' with kind } :=
  .verbatim hsort rfl h.linesBefore

end Resembles

end Leaf

namespace Builder

/-- The builder with another limit and another leaf that counts no block containers. -/
def relaxed (limit : Nat) (leaf : Option Leaf) (skipped : Nat) (b : Builder) : Builder :=
  { b with
    options := { b.options with maxDepth := limit }
    leaf
    skippedContainers := 0
    skippedFrames := skipped }

/-- One builder follows another one. -/
def Follows (limit : Nat) (b follower : Builder) : Prop :=
  ∃ leaf skipped, follower = b.relaxed limit leaf skipped ∧
    Option.Rel Leaf.Resembles b.leaf leaf

/-- An operation on the follower leads to one that follows. -/
def Matched (limit : Nat) (b : Builder) (result : Option Builder) : Prop :=
  ∃ follower, result = some follower ∧ b.Follows limit follower

theorem Matched.bind {limit : Nat} {b b' : Builder} {result : Option Builder}
    {f : Builder → Option Builder} (h : Matched limit b result)
    (hf : ∀ follower, b.Follows limit follower → Matched limit b' (f follower)) :
    Matched limit b' (result.bind f) := by
  obtain ⟨follower, rfl, h⟩ := h
  exact hf follower h

namespace Follows

variable {limit : Nat} {b b' f : Builder} {range : ByteRange}

theorem matched (h : b.Follows limit f) : Matched limit b (some f) := ⟨f, rfl, h⟩

/-! ### What both have in common -/

theorem source_eq (h : b.Follows limit f) : f.source = b.source := by
  obtain ⟨leaf, skipped, rfl, -⟩ := h
  rfl

theorem containers_eq (h : b.Follows limit f) : f.containers = b.containers := by
  obtain ⟨leaf, skipped, rfl, -⟩ := h
  rfl

theorem gap_eq (h : b.Follows limit f) (stop : Nat) : f.gap? stop = b.gap? stop := by
  obtain ⟨leaf, skipped, rfl, -⟩ := h
  rfl

theorem textInline_eq (h : b.Follows limit f) : textInline f.options = textInline b.options := by
  obtain ⟨leaf, skipped, rfl, -⟩ := h
  rfl

theorem maxDepth_eq (h : b.Follows limit f) : f.options.maxDepth = limit := by
  obtain ⟨leaf, skipped, rfl, -⟩ := h
  rfl

theorem cursor_eq (h : b.Follows limit f) : f.cursor = b.cursor := by
  obtain ⟨leaf, skipped, rfl, -⟩ := h
  rfl

theorem leaf_rel (h : b.Follows limit f) : Option.Rel Leaf.Resembles b.leaf f.leaf := by
  obtain ⟨leaf, skipped, rfl, hrel⟩ := h
  exact hrel

theorem leaf_none (h : b.Follows limit f) (hleaf : b.leaf = none) : f.leaf = none := by
  have hrel := h.leaf_rel
  rw [hleaf] at hrel
  generalize f.leaf = leaf' at hrel
  cases hrel
  rfl

theorem exists_leaf (h : b.Follows limit f) {leaf : Leaf} (hleaf : b.leaf = some leaf) :
    ∃ leaf', f.leaf = some leaf' ∧ leaf.Resembles leaf' := by
  have hrel := h.leaf_rel
  rw [hleaf] at hrel
  generalize f.leaf = leaf' at hrel
  cases hrel with
  | some hresembles => exact ⟨_, rfl, hresembles⟩

/-! ### Changes of fields -/

theorem pushBlock (h : b.Follows limit f) (block : Block) :
    (b.pushBlock block).Follows limit (f.pushBlock block) := by
  obtain ⟨leaf, skipped, rfl, hrel⟩ := h
  refine ⟨leaf, skipped, ?_, by rwa [leaf_pushBlock]⟩
  cases hcons : b.containers <;> simp [Builder.pushBlock, relaxed, hcons]

theorem markLoose (h : b.Follows limit f) : b.markLoose.Follows limit f.markLoose := by
  obtain ⟨leaf, skipped, rfl, hrel⟩ := h
  refine ⟨leaf, skipped, ?_, by rwa [leaf_markLoose]⟩
  have same : (b.relaxed limit leaf skipped).containers = b.containers := rfl
  unfold Builder.markLoose
  rw [same]
  split <;> rfl

theorem moveTo (h : b.Follows limit f) (cursor : Nat) :
    ({ b with cursor } : Builder).Follows limit { f with cursor } := by
  obtain ⟨leaf, skipped, rfl, hrel⟩ := h
  exact ⟨leaf, skipped, rfl, hrel⟩

theorem dropLeaf (h : b.Follows limit f) :
    ({ b with leaf := none } : Builder).Follows limit { f with leaf := none } := by
  obtain ⟨leaf, skipped, rfl, hrel⟩ := h
  exact ⟨none, skipped, rfl, .none⟩

theorem withContainers (h : b.Follows limit f) (containers : List Container) :
    ({ b with containers } : Builder).Follows limit { f with containers } := by
  obtain ⟨leaf, skipped, rfl, hrel⟩ := h
  exact ⟨leaf, skipped, rfl, hrel⟩

theorem openLeaf (h : b.Follows limit f) (kind : LeafKind) (start : Nat)
    (lines : Option (List Line)) :
    (b.openLeaf kind start lines).Follows limit (f.openLeaf kind start lines) := by
  obtain ⟨leaf, skipped, rfl, hrel⟩ := h
  exact ⟨_, skipped, rfl, .some (.opened kind start lines)⟩

theorem mapLeaf (h : b.Follows limit f) {g : Leaf → Leaf}
    (hg : ∀ leaf leaf' : Leaf, leaf.Resembles leaf' → (g leaf).Resembles (g leaf')) :
    (b.mapLeaf g).Follows limit (f.mapLeaf g) := by
  obtain ⟨leaf, skipped, rfl, hrel⟩ := h
  refine ⟨leaf.map g, skipped, rfl, ?_⟩
  show Option.Rel Leaf.Resembles (b.leaf.map g) (leaf.map g)
  generalize b.leaf = followed at hrel
  cases hrel with
  | none => exact .none
  | some hleaf => exact .some (hg _ _ hleaf)

/-! ### Blocks -/

theorem closeParagraph {stop : Nat} (h : b.Follows limit f)
    (hleaf : ∀ leaf leaf', b.leaf = some leaf → f.leaf = some leaf' → leaf.Resembles leaf' →
      leaf'.start = leaf.start ∧ max stop leaf'.stop = max stop leaf.stop ∧
        leaf'.inlines = leaf.inlines)
    (hb : b.closeParagraph stop = some b') : Matched limit b' (f.closeParagraph stop) := by
  cases hopen : b.leaf with
  | none =>
    rw [Builder.closeParagraph, hopen] at hb
    obtain rfl := Option.some.inj hb
    rw [Builder.closeParagraph, h.leaf_none hopen]
    exact h.matched
  | some leaf =>
    obtain ⟨leaf', hopen', hresembles⟩ := h.exists_leaf hopen
    obtain ⟨hstart, hstop, hinlines⟩ := hleaf leaf leaf' hopen hopen' hresembles
    simp only [Builder.closeParagraph, hopen, Option.bind_eq_bind, Option.bind_eq_some_iff,
      Option.some.injEq] at hb
    obtain ⟨last, hlast, rfl⟩ := hb
    rw [Builder.closeParagraph, hopen']
    refine ⟨_, Option.bind_eq_some_iff.2 ⟨last, ?_, rfl⟩, ?_⟩
    · rw [h.source_eq, hstart, hstop, hlast]
    · rw [hinlines, hresembles.linesBefore]
      exact (h.dropLeaf.pushBlock _).moveTo last.stop

theorem closeImplicit (h : b.Follows limit f) (hb : b.closeImplicit = some b') :
    Matched limit b' f.closeImplicit := by
  unfold Builder.closeImplicit at hb
  split at hb
  next start stop lines root frames hopen =>
    obtain ⟨leaf', hopen', hresembles⟩ := h.exists_leaf hopen
    have same : leaf' = ⟨.paragraph true, start, stop, lines, root, frames⟩ := by
      cases hresembles with
      | implicit _ => rfl
      | prose hsort _ _ _ => cases hsort
      | verbatim hsort _ _ => cases hsort
    rw [same] at hopen'
    have matched := h.closeParagraph (fun leaf leaf' hleaf hleaf' _ => by
      rw [hopen] at hleaf
      rw [hopen'] at hleaf'
      obtain rfl := Option.some.inj hleaf
      obtain rfl := Option.some.inj hleaf'
      exact ⟨rfl, rfl, rfl⟩) hb
    rw [Builder.closeImplicit, hopen']
    exact matched
  next hother =>
    obtain rfl := Option.some.inj hb
    have none : f.closeImplicit = some f := by
      unfold Builder.closeImplicit
      split
      next start' stop' lines' root' frames' hopen' =>
        cases hopen : b.leaf with
        | none => simp [h.leaf_none hopen] at hopen'
        | some leaf =>
          obtain ⟨leaf'', hopen'', hresembles⟩ := h.exists_leaf hopen
          rw [hopen'] at hopen''
          obtain rfl := Option.some.inj hopen''
          have kind : leaf.kind = .paragraph true := hresembles.kind.symm
          obtain ⟨_, start, stop, lines, root, frames⟩ := leaf
          obtain rfl := kind
          exact absurd hopen (hother start stop lines root frames)
      · rfl
    rw [none]
    exact h.matched

theorem flushDefinitions {before : Option Nat} (h : b.Follows limit f)
    (hb : b.flushDefinitions before = some b') : Matched limit b' (f.flushDefinitions before) := by
  obtain ⟨leaf, skipped, rfl, hrel⟩ := h
  simp only [Builder.flushDefinitions, Option.bind_eq_bind, Option.bind_eq_some_iff,
    Option.some.injEq] at hb
  obtain ⟨⟨definitions, ranges, cursor⟩, htake, rfl⟩ := hb
  have moved : ({ b with definitions := ranges, cursor } : Builder).Follows limit
      { b.relaxed limit leaf skipped with definitions := ranges, cursor } :=
    ⟨leaf, skipped, rfl, hrel⟩
  unfold Builder.flushDefinitions
  rw [show takeDefinitions (b.relaxed limit leaf skipped).source
    (b.relaxed limit leaf skipped).isNested before (b.relaxed limit leaf skipped).definitions
      (b.relaxed limit leaf skipped).cursor = some (definitions, ranges, cursor) from htake]
  simp only [Option.bind_eq_bind, Option.bind_some]
  split
  · exact moved.matched
  · exact (moved.pushBlock _).matched

theorem beginBlock {start : Nat} {lines : Option (List Line)} (h : b.Follows limit f)
    (hb : b.beginBlock start = some (lines, b')) :
    ∃ f', f.beginBlock start = some (lines, f') ∧ b'.Follows limit f' := by
  simp only [Builder.beginBlock, Option.bind_eq_bind, Option.bind_eq_some_iff, Option.some.injEq,
    Prod.mk.injEq] at hb
  obtain ⟨b₁, hclose, b₂, hflush, lineStart, hlineStart, gap, hgap, rfl, rfl⟩ := hb
  obtain ⟨f₁, hclose', h₁⟩ := h.closeImplicit hclose
  obtain ⟨f₂, hflush', h₂⟩ := h₁.flushDefinitions hflush
  refine ⟨{ f₂ with cursor := max f₂.cursor lineStart }, ?_, ?_⟩
  · rw [← h₂.source_eq] at hlineStart
    rw [← h₂.gap_eq] at hgap
    simp only [Builder.beginBlock, hclose', hflush', hlineStart, hgap, Option.bind_eq_bind,
      Option.bind_some]
  · rw [h₂.cursor_eq]
    exact h₂.moveTo _

theorem beginLeaf {kind : LeafKind} {start : Nat} (h : b.Follows limit f)
    (hb : b.beginLeaf kind start = some b') : Matched limit b' (f.beginLeaf kind start) := by
  simp only [Builder.beginLeaf, Option.bind_eq_bind, Option.bind_eq_some_iff,
    Option.some.injEq] at hb
  obtain ⟨⟨lines, b₁⟩, hbegin, rfl⟩ := hb
  obtain ⟨f₁, hbegin', h₁⟩ := h.beginBlock hbegin
  simp only [Builder.beginLeaf, hbegin', Option.bind_eq_bind, Option.bind_some]
  exact (h₁.openLeaf kind start lines).matched

theorem enterParagraph (h : b.Follows limit f) (hb : b.enterParagraph range = some b') :
    Matched limit b' (f.enterParagraph range) := by
  simp only [Builder.enterParagraph, Option.bind_eq_bind, Option.bind_eq_some_iff,
    Option.some.injEq] at hb
  obtain ⟨⟨lines, b₁⟩, hbegin, rfl⟩ := hb
  obtain ⟨f₁, hbegin', h₁⟩ := h.beginBlock hbegin
  simp only [Builder.enterParagraph, hbegin', Option.bind_eq_bind, Option.bind_some]
  exact (h₁.markLoose.openLeaf _ _ lines).matched

theorem addRule (h : b.Follows limit f) (hb : b.addRule range = some b') :
    Matched limit b' (f.addRule range) := by
  simp only [Builder.addRule, Option.bind_eq_bind, Option.bind_eq_some_iff,
    Option.some.injEq] at hb
  obtain ⟨⟨lines, b₁⟩, hbegin, last, hlast, content, hcontent, rfl⟩ := hb
  obtain ⟨f₁, hbegin', h₁⟩ := h.beginBlock hbegin
  rw [← h₁.source_eq] at hlast hcontent
  simp only [Builder.addRule, hbegin', hlast, hcontent, Option.bind_eq_bind, Option.bind_some]
  exact ((h₁.pushBlock _).moveTo last.stop).matched

/-- The open leaf of both is of the same kind. -/
theorem leaf_cases (h : b.Follows limit f) :
    (b.leaf = none ∧ f.leaf = none) ∨
      ∃ leaf leaf' : Leaf, b.leaf = some leaf ∧ f.leaf = some leaf' ∧ leaf'.kind = leaf.kind ∧
        leaf.Resembles leaf' := by
  cases hopen : b.leaf with
  | none => exact .inl ⟨rfl, h.leaf_none hopen⟩
  | some leaf =>
    obtain ⟨leaf', hopen', hresembles⟩ := h.exists_leaf hopen
    exact .inr ⟨leaf, leaf', rfl, hopen', hresembles.kind, hresembles⟩

theorem closeHeading (h : b.Follows limit f) (hb : b.closeHeading range = some b') :
    Matched limit b' (f.closeHeading range) := by
  rcases h.leaf_cases with ⟨hopen, hopen'⟩ | ⟨⟨kind, start, stop, lines, root, frames⟩,
    ⟨kind', start', stop', lines', root', frames'⟩, hopen, hopen', rfl, hresembles⟩
  · simp only [Builder.closeHeading, hopen] at hb
    simp only [Builder.closeHeading, hopen']
    obtain rfl := Option.some.inj hb
    exact h.dropLeaf.matched
  · cases kind' with
    | heading level =>
      obtain ⟨rfl, rfl⟩ : root' = root ∧ frames' = frames := hresembles.root_frames nofun
      obtain rfl : lines' = lines := hresembles.linesBefore
      simp only [Builder.closeHeading, hopen, Option.bind_eq_bind, Option.bind_eq_some_iff,
        Option.some.injEq] at hb
      obtain ⟨last, hlast, rfl⟩ := hb
      rw [← h.source_eq] at hlast
      simp only [Builder.closeHeading, hopen', hlast, Option.bind_eq_bind, Option.bind_some]
      exact ((h.dropLeaf.pushBlock _).moveTo last.stop).matched
    | paragraph _ | code _ _ | html _ =>
      simp only [Builder.closeHeading, hopen] at hb
      simp only [Builder.closeHeading, hopen']
      obtain rfl := Option.some.inj hb
      exact h.dropLeaf.matched

theorem closeCode (h : b.Follows limit f) (hb : b.closeCode range = some b') :
    Matched limit b' (f.closeCode range) := by
  rcases h.leaf_cases with ⟨hopen, hopen'⟩ | ⟨⟨kind, start, stop, lines, root, frames⟩,
    ⟨kind', start', stop', lines', root', frames'⟩, hopen, hopen', rfl, hresembles⟩
  · simp only [Builder.closeCode, hopen] at hb
    simp only [Builder.closeCode, hopen']
    obtain rfl := Option.some.inj hb
    exact h.dropLeaf.matched
  · cases kind' with
    | code text info =>
      obtain rfl : lines' = lines := hresembles.linesBefore
      rw [Builder.closeCode, hopen] at hb
      obtain ⟨last, hlast, hb⟩ := Option.bind_eq_some_iff.1 hb
      rw [← h.source_eq] at hlast
      cases info with
      | none =>
        obtain rfl := Option.some.inj hb
        simp only [Builder.closeCode, hopen', hlast, Option.bind_eq_bind, Option.bind_some]
        exact ((h.dropLeaf.pushBlock _).moveTo last.stop).matched
      | some info =>
        obtain ⟨fence, hfence, hb⟩ := Option.bind_eq_some_iff.1 hb
        obtain rfl := Option.some.inj hb
        rw [← h.source_eq] at hfence
        simp only [Builder.closeCode, hopen', hlast, hfence, Option.bind_eq_bind, Option.bind_some]
        exact ((h.dropLeaf.pushBlock _).moveTo last.stop).matched
    | paragraph _ | heading _ | html _ =>
      simp only [Builder.closeCode, hopen] at hb
      simp only [Builder.closeCode, hopen']
      obtain rfl := Option.some.inj hb
      exact h.dropLeaf.matched

theorem closeHtml (h : b.Follows limit f) (hb : b.closeHtml range = some b') :
    Matched limit b' (f.closeHtml range) := by
  rcases h.leaf_cases with ⟨hopen, hopen'⟩ | ⟨⟨kind, start, stop, lines, root, frames⟩,
    ⟨kind', start', stop', lines', root', frames'⟩, hopen, hopen', rfl, hresembles⟩
  · simp only [Builder.closeHtml, hopen] at hb
    simp only [Builder.closeHtml, hopen']
    obtain rfl := Option.some.inj hb
    exact h.dropLeaf.matched
  · cases kind' with
    | html text =>
      obtain rfl : lines' = lines := hresembles.linesBefore
      simp only [Builder.closeHtml, hopen, Option.bind_eq_bind, Option.bind_eq_some_iff,
        Option.some.injEq] at hb
      obtain ⟨last, hlast, rfl⟩ := hb
      rw [source_pushBlock] at hlast
      change blockEnd? b.source range = some last at hlast
      rw [← h.source_eq] at hlast
      simp only [Builder.closeHtml, hopen']
      refine ⟨_, Option.bind_eq_some_iff.2 ⟨last, ?_, rfl⟩,
        (h.dropLeaf.pushBlock _).moveTo last.stop⟩
      rw [source_pushBlock]
      exact hlast
    | paragraph _ | heading _ | code _ _ =>
      simp only [Builder.closeHtml, hopen] at hb
      simp only [Builder.closeHtml, hopen']
      obtain rfl := Option.some.inj hb
      exact h.dropLeaf.matched

/-! ### Inlines -/

theorem ensureLeaf (h : b.Follows limit f) (hb : b.ensureLeaf range = some b') :
    Matched limit b' (f.ensureLeaf range) := by
  have extended {b f : Builder} (h : b.Follows limit f) :=
    h.mapLeaf (g := fun leaf => { leaf with stop := max leaf.stop range.stop })
      fun _ _ hresembles => hresembles.extend range.stop
  rcases h.leaf_cases with ⟨hopen, hopen'⟩ | ⟨_, _, hopen, hopen', -, -⟩
  · simp only [Builder.ensureLeaf, hopen, Option.bind_eq_bind, Option.bind_eq_some_iff,
      Option.some.injEq] at hb
    obtain ⟨b₁, hbegin, rfl⟩ := hb
    obtain ⟨f₁, hbegin', h₁⟩ := h.beginLeaf hbegin
    simp only [Builder.ensureLeaf, hopen', hbegin', Option.bind_eq_bind, Option.bind_some]
    exact (extended h₁).matched
  · simp only [Builder.ensureLeaf, hopen, Option.bind_eq_bind, Option.bind_some,
      Option.some.injEq] at hb
    obtain rfl := hb
    simp only [Builder.ensureLeaf, hopen', Option.bind_eq_bind, Option.bind_some]
    exact (extended h).matched

theorem addInline {inline : Inline} (h : b.Follows limit f)
    (hb : b.addInline inline range = some b') : Matched limit b' (f.addInline inline range) := by
  obtain ⟨b₁, hensure, hb⟩ := Option.bind_eq_some_iff.1 hb
  obtain rfl := Option.some.inj hb
  exact (h.ensureLeaf hensure).bind fun f₁ h₁ =>
    (h₁.mapLeaf fun _ _ hresembles => hresembles.push inline).matched

theorem mapKind (h : b.Follows limit f) {kind : LeafKind} (hkind : kind.sort = .verbatim) :
    (b.mapLeaf fun leaf => { leaf with kind }).Follows limit
      (f.mapLeaf fun leaf => { leaf with kind }) :=
  h.mapLeaf fun _ _ hresembles => hresembles.setKind hkind

theorem addText {content : String} (h : b.Follows limit f)
    (hb : b.addText content range = some b') : Matched limit b' (f.addText content range) := by
  -- Where the text becomes an inline, it is read of the same source.
  have inline (hb : (do
      let raw ← sliceChars b.source range.start range.stop
      let before ← takeBytes b.source range.start
      b.addInline (textInline b.options content raw before) range) = some b') :
      Matched limit b' (do
        let raw ← sliceChars f.source range.start range.stop
        let before ← takeBytes f.source range.start
        f.addInline (textInline f.options content raw before) range) := by
    simp only [Option.bind_eq_bind, Option.bind_eq_some_iff] at hb
    obtain ⟨raw, hraw, before, hbefore, hadd⟩ := hb
    simp only [h.source_eq, h.textInline_eq, hraw, hbefore, Option.bind_eq_bind, Option.bind_some]
    exact h.addInline hadd
  rcases h.leaf_cases with ⟨hopen, hopen'⟩ | ⟨⟨kind, start, stop, lines, root, frames⟩,
    ⟨kind', start', stop', lines', root', frames'⟩, hopen, hopen', rfl, hresembles⟩
  · simp only [Builder.addText, hopen] at hb
    simp only [Builder.addText, hopen']
    exact inline hb
  · cases kind' with
    | code text info =>
      simp only [Builder.addText, hopen, Option.some.injEq] at hb
      obtain rfl := hb
      simp only [Builder.addText, hopen']
      exact (h.mapKind rfl).matched
    | html text =>
      simp only [Builder.addText, hopen, Option.some.injEq] at hb
      obtain rfl := hb
      simp only [Builder.addText, hopen']
      exact (h.mapKind rfl).matched
    | paragraph _ | heading _ =>
      simp only [Builder.addText, hopen] at hb
      simp only [Builder.addText, hopen']
      exact inline hb

theorem addHtml {content : String} (h : b.Follows limit f)
    (hb : b.addHtml content range = some b') : Matched limit b' (f.addHtml content range) := by
  rcases h.leaf_cases with ⟨hopen, hopen'⟩ | ⟨⟨kind, start, stop, lines, root, frames⟩,
    ⟨kind', start', stop', lines', root', frames'⟩, hopen, hopen', rfl, hresembles⟩
  · simp only [Builder.addHtml, hopen] at hb
    simp only [Builder.addHtml, hopen']
    exact h.addInline hb
  · cases kind' with
    | html text =>
      simp only [Builder.addHtml, hopen, Option.some.injEq] at hb
      obtain rfl := hb
      simp only [Builder.addHtml, hopen']
      exact (h.mapKind rfl).matched
    | paragraph _ | heading _ | code _ _ =>
      simp only [Builder.addHtml, hopen] at hb
      simp only [Builder.addHtml, hopen']
      exact h.addInline hb

theorem addBreak {hard : Bool} (h : b.Follows limit f) (hb : b.addBreak hard range = some b') :
    Matched limit b' (f.addBreak hard range) := by
  obtain ⟨raw, hraw, hadd⟩ := Option.bind_eq_some_iff.1 hb
  rw [← h.source_eq] at hraw
  simp only [Builder.addBreak, hraw, Option.bind_eq_bind, Option.bind_some]
  exact h.addInline hadd

/-- An event that enters and leaves no container. -/
theorem step {e : RangedEvent} (h : b.Follows limit f) (henter : ∀ tag, e.event ≠ .enter tag)
    (hleave : ∀ kind, e.event ≠ .leave kind) (hb : b.step e = some b') :
    Matched limit b' (f.step e) := by
  obtain ⟨event, range⟩ := e
  cases event with
  | enter tag => exact absurd rfl (henter tag)
  | leave kind => exact absurd rfl (hleave kind)
  | text content => exact h.addText hb
  | code content => exact h.addInline hb
  | html content => exact h.addHtml hb
  | inlineHtml content => exact h.addInline hb
  | softBreak => exact h.addBreak hb
  | hardBreak => exact h.addBreak hb
  | rule => exact h.addRule hb
  | other =>
    obtain rfl := Option.some.inj hb
    exact h.matched

/-! ### Inline containers -/

/-- The numbers of containers that are counted make no difference. -/
theorem count (h : b.Follows limit f) (m n : Nat) :
    ({ b with skippedContainers := m, skippedFrames := n } : Builder).Follows limit f := by
  obtain ⟨leaf, skipped, rfl, hrel⟩ := h
  exact ⟨leaf, skipped, rfl, hrel⟩

theorem mapLeaf_left (h : b.Follows limit f) {g : Leaf → Leaf}
    (hg : ∀ leaf leaf' : Leaf, b.leaf = some leaf → leaf.Resembles leaf' →
      (g leaf).Resembles leaf') : (b.mapLeaf g).Follows limit f := by
  obtain ⟨leaf, skipped, rfl, hrel⟩ := h
  refine ⟨leaf, skipped, rfl, ?_⟩
  show Option.Rel Leaf.Resembles (b.leaf.map g) leaf
  generalize b.leaf = followed at hg hrel
  cases hrel with
  | none => exact .none
  | some hleaf => exact .some (hg _ _ rfl hleaf)

end Follows

/-- A change of the inlines in the leaf and of the number of inline containers that are counted. -/
def ChangesInlines (b b' : Builder) : Prop :=
  ∃ (g : Leaf → Leaf) (n : Nat), (∀ leaf, ∃ root frames, g leaf = { leaf with root, frames }) ∧
    b' = { b.mapLeaf g with skippedFrames := n }

theorem changesInlines_count (b : Builder) (n : Nat) :
    b.ChangesInlines { b with skippedFrames := n } :=
  ⟨id, n, fun leaf => ⟨leaf.root, leaf.frames, rfl⟩, by simp [mapLeaf]⟩

theorem changesInlines_pushFrame (kind : FrameKind) (b : Builder) :
    b.ChangesInlines (b.pushFrame kind) := by
  unfold pushFrame
  split
  · exact b.changesInlines_count _
  · exact ⟨_, b.skippedFrames, fun leaf => ⟨leaf.root, { kind } :: leaf.frames, rfl⟩, rfl⟩

theorem changesInlines_leaveFrame (b : Builder) : b.ChangesInlines b.leaveFrame := by
  unfold leaveFrame
  split
  · exact b.changesInlines_count _
  · exact ⟨_, b.skippedFrames, fun leaf => leaf.exists_closeFrame, rfl⟩

namespace Follows

variable {limit : Nat} {b b' f f' : Builder} {range : ByteRange}

/-- In a block of code or markup the inlines make no difference. -/
theorem of_verbatim (h : b.Follows limit f) {leaf : Leaf} (hleaf : b.leaf = some leaf)
    (hsort : leaf.kind.sort = .verbatim) (hb : b.ChangesInlines b') (hf : f.ChangesInlines f') :
    b'.Follows limit f' := by
  obtain ⟨g, n, hg, rfl⟩ := hb
  obtain ⟨g', n', hg', rfl⟩ := hf
  obtain ⟨leaf', skipped, rfl, hrel⟩ := h
  refine ⟨leaf'.map g', n', rfl, ?_⟩
  show Option.Rel Leaf.Resembles (b.leaf.map g) (leaf'.map g')
  rw [hleaf] at hrel ⊢
  cases hrel with
  | some hresembles =>
    refine .some ?_
    obtain ⟨root, frames, hmap⟩ := hg leaf
    obtain ⟨root', frames', hmap'⟩ := hg' _
    rw [hmap, hmap']
    exact .verbatim hsort hresembles.kind hresembles.linesBefore

/-- An inline container that both open. -/
theorem pushFrame_opened (h : b.Follows limit f) (hb : b.framesFull = false)
    (hf : f.framesFull = false) (kind : FrameKind) :
    (b.pushFrame kind).Follows limit (f.pushFrame kind) := by
  unfold pushFrame
  rw [hb, hf]
  exact h.mapLeaf fun _ _ hresembles => hresembles.openFrame kind

/-- Leaving an inline container that both have opened. -/
theorem leaveFrame_opened (h : b.Follows limit f) (hb : b.skippedFrames = 0)
    (hf : f.skippedFrames = 0) : b.leaveFrame.Follows limit f.leaveFrame := by
  rw [leaveFrame_of_opened hb, leaveFrame_of_opened hf]
  exact h.mapLeaf fun _ _ hresembles => hresembles.closeFrame

/-- An inline container that is counted and that the follower does not enter. -/
theorem pushFrame_counted {leaf : Leaf} (h : b.Follows limit f) (hleaf : b.leaf = some leaf)
    (hsort : leaf.kind.sort ≠ .implicit) (hensure : b.ensureLeaf range = some b')
    (hfull : b'.framesFull = true) (kind : FrameKind) : (b'.pushFrame kind).Follows limit f := by
  unfold pushFrame
  rw [if_pos hfull]
  simp only [Builder.ensureLeaf, hleaf, Option.bind_eq_bind, Option.bind_some,
    Option.some.injEq] at hensure
  obtain rfl := hensure
  refine count (h.mapLeaf_left fun leaf' _ hleaf' hresembles => ?_) _ _
  obtain rfl := Option.some.inj (hleaf.symm.trans hleaf')
  exact hresembles.extend_left hsort range.stop

/-! ### Block containers -/

theorem fits_eq (h : b.Follows limit f) (levels : Nat) :
    f.fits levels = decide (b.depth + levels ≤ limit) := by
  obtain ⟨leaf, skipped, rfl, -⟩ := h
  unfold fits depth relaxed
  rfl

theorem pushContainer (h : b.Follows limit f) (kind : ContainerKind)
    (lines : Option (List Line)) :
    (b.pushContainer kind lines).Follows limit (f.pushContainer kind lines) := by
  unfold Builder.pushContainer
  rw [h.containers_eq]
  exact h.withContainers _

theorem enterQuote (h : b.Follows limit f) (hfits : b.fits 1 = true) (hlimit : b.depth + 1 ≤ limit)
    (hb : b.enterQuote range = some b') : Matched limit b' (f.enterQuote range) := by
  rw [Builder.enterQuote, if_pos hfits] at hb
  rw [Builder.enterQuote, h.fits_eq, if_pos (decide_eq_true hlimit)]
  simp only [Option.bind_eq_bind, Option.bind_eq_some_iff, Option.some.injEq] at hb
  obtain ⟨⟨lines, b₁⟩, hbegin, rfl⟩ := hb
  obtain ⟨f₁, hbegin', h₁⟩ := h.beginBlock hbegin
  simp only [hbegin', Option.bind_eq_bind, Option.bind_some]
  exact (h₁.pushContainer _ lines).matched

theorem enterList {first : Option Nat} (h : b.Follows limit f) (hfits : b.fits 2 = true)
    (hlimit : b.depth + 2 ≤ limit) (hb : b.enterList first range = some b') :
    Matched limit b' (f.enterList first range) := by
  rw [Builder.enterList, if_pos hfits] at hb
  rw [Builder.enterList, h.fits_eq, if_pos (decide_eq_true hlimit)]
  simp only [Option.bind_eq_bind, Option.bind_eq_some_iff, Option.some.injEq] at hb
  obtain ⟨⟨lines, b₁⟩, hbegin, rest, hrest, rfl⟩ := hb
  obtain ⟨f₁, hbegin', h₁⟩ := h.beginBlock hbegin
  rw [← h₁.source_eq] at hrest
  simp only [hbegin', hrest, Option.bind_eq_bind, Option.bind_some]
  exact (h₁.pushContainer _ lines).matched

theorem none_skipped (h : b.Follows limit f) : f.skippedContainers = 0 := by
  obtain ⟨leaf, skipped, rfl, -⟩ := h
  rfl

theorem enterItem (h : b.Follows limit f) (hopened : b.skippedContainers = 0)
    (hb : b.enterItem range = some b') : Matched limit b' (f.enterItem range) := by
  rw [Builder.enterItem, if_neg (by omega)] at hb
  rw [Builder.enterItem, if_neg (by rw [h.none_skipped]; omega)]
  obtain ⟨b₁, hclose, hb⟩ := Option.bind_eq_some_iff.1 hb
  obtain rfl := Option.some.inj hb
  exact (h.closeImplicit hclose).bind fun f₁ h₁ =>
    ((h₁.moveTo range.start).pushContainer _ none).matched

theorem leaveQuote (h : b.Follows limit f) (hb : b.leaveQuote range = some b') :
    Matched limit b' (f.leaveQuote range) := by
  simp only [Builder.leaveQuote, Option.bind_eq_bind, Option.bind_eq_some_iff] at hb
  obtain ⟨b₁, hclose, b₂, hflush, last, hlast, trailing, htrailing, hb⟩ := hb
  obtain ⟨f₁, hclose', h₁⟩ := h.closeImplicit hclose
  obtain ⟨f₂, hflush', h₂⟩ := h₁.flushDefinitions hflush
  rw [← h₂.source_eq] at hlast
  rw [← h₂.gap_eq] at htrailing
  simp only [Builder.leaveQuote, hclose', hflush', hlast, htrailing, Option.bind_eq_bind,
    Option.bind_some, h₂.containers_eq]
  cases hcons : b₂.containers with
  | nil =>
    simp only [hcons, Option.some.injEq] at hb
    obtain rfl := hb
    exact h₂.matched
  | cons c rest =>
    obtain ⟨kind, reversed, lines⟩ := c
    simp only [hcons] at hb
    cases kind with
    | quote start =>
      simp only [Option.bind_eq_some_iff, Option.some.injEq] at hb
      obtain ⟨lineStart, hlineStart, text, htext, rfl⟩ := hb
      rw [← h₂.source_eq] at hlineStart htext
      simp only [hlineStart, htext, Option.bind_some]
      have pushed := (h₂.withContainers rest).pushBlock
        (.quote (quoteLines (start - lineStart) text)
          (if trailing.isEmpty then reversed else setLinesAfter trailing reversed).reverse
          (tracked lines))
      rw [pushed.cursor_eq]
      exact (pushed.moveTo _).matched
    | document | list _ _ | item =>
      obtain rfl := Option.some.inj hb
      exact (h₂.withContainers rest).matched

theorem leaveItem (h : b.Follows limit f) (hb : b.leaveItem range = some b') :
    Matched limit b' (f.leaveItem range) := by
  obtain ⟨b₁, hclose, hb⟩ := Option.bind_eq_some_iff.1 hb
  obtain ⟨b₂, hflush, hb⟩ := Option.bind_eq_some_iff.1 hb
  refine (h.closeImplicit hclose).bind fun f₁ h₁ => ?_
  refine (h₁.flushDefinitions hflush).bind fun f₂ h₂ => ?_
  simp only [h₂.containers_eq]
  split at hb
  · obtain rfl := Option.some.inj hb
    exact h₂.matched
  · obtain rfl := Option.some.inj hb
    exact (h₂.withContainers _).matched
  · obtain rfl := Option.some.inj hb
    exact (h₂.withContainers _).matched

theorem leaveList (h : b.Follows limit f) : b.leaveList.Follows limit f.leaveList := by
  unfold Builder.leaveList
  rw [h.containers_eq]
  split
  · exact h
  · exact (h.withContainers _).pushBlock _
  · exact h.withContainers _

end Follows

end Builder

end MarkdownSpans
