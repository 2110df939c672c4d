import MarkdownSpans.Proofs.Tree.Filling

/-!
# Containers that do not fit

A limit on nesting deletes containers from balanced events: `EventForest.pruned` takes out the
events that enter and leave a container nested too deep, and leaves what is in it. Which containers
are too deep is told by the containers around them alone, so no state of a builder is involved.

What deleting takes for granted (`EventForest.Foldable`) is about inlines outside of leaf blocks, too.
A builder puts them into a paragraph of its own until the next block begins, so how many containers
are open in it is told by the events before, not only by those around (`EventForest.past`).
-/

namespace MarkdownSpans

/-- The kinds of leaf blocks. -/
def TagKind.isLeafBlock : TagKind → Bool
  | paragraph | heading | codeBlock | htmlBlock => true
  | _ => false

/-- A tag is one of a block container, of an inline container, of a leaf block or of none. -/
theorem Tag.classes (tag : Tag) :
    Builder.isBlockContainer tag.kind = true ∨ Builder.isInlineContainer tag.kind = true ∨
      tag.kind.isLeafBlock = true ∨ tag = .other := by
  cases tag with
  | blockQuote | list _ | item => exact .inl rfl
  | emphasis | strong | strikethrough | link _ _ _ | image _ _ _ => exact .inr (.inl rfl)
  | paragraph | heading _ | codeBlock _ | htmlBlock => exact .inr (.inr (.inl rfl))
  | other => exact .inr (.inr (.inr rfl))

theorem TagKind.isBlockContainer_of_isLeafBlock {kind : TagKind} (h : kind.isLeafBlock) :
    Builder.isBlockContainer kind = false := by
  cases kind <;> first | rfl | cases h

theorem TagKind.isInlineContainer_of_isLeafBlock {kind : TagKind} (h : kind.isLeafBlock) :
    Builder.isInlineContainer kind = false := by
  cases kind <;> first | rfl | cases h

theorem TagKind.isBlockContainer_of_isInlineContainer {kind : TagKind}
    (h : Builder.isInlineContainer kind) : Builder.isBlockContainer kind = false := by
  cases kind <;> first | rfl | cases h

/-- The events that put an inline or an inline container into a leaf. -/
def Event.isInline : Event → Bool
  | text _ | code _ | html _ | inlineHtml _ | softBreak | hardBreak => true
  | enter tag => Builder.isInlineContainer tag.kind
  | leave _ | rule | other => false

/-- Where events stand among leaf blocks and inline containers. -/
inductive Place where
  /-- In no leaf block, with `n` inline containers open since the last block began or ended. -/
  | outside (n : Nat)
  /-- In a paragraph or heading, with `n` inline containers between. -/
  | prose (n : Nat)
  /-- In a block of code or markup. -/
  | verbatim
  deriving DecidableEq

namespace Place

/-- One inline container further in. -/
def deeper : Place → Place
  | outside n => outside (n + 1)
  | prose n => prose (n + 1)
  | verbatim => verbatim

/-- One inline container further out, if one is open. -/
def shallower : Place → Place
  | outside n => outside (n - 1)
  | prose n => prose (n - 1)
  | verbatim => verbatim

/-- Where a block begins or ends: outside of leaf blocks, no inline container stays open then. -/
def closed : Place → Place
  | outside _ => outside 0
  | place => place

/-- The number of inline containers that are open, outside of blocks of code and markup. -/
def frames : Place → Nat
  | outside n | prose n => n
  | verbatim => 0

/-- The number of inline containers around in a paragraph or heading. -/
def prose? : Place → Option Nat
  | prose n => some n
  | outside _ | verbatim => none

/-- Where the content of a container begins. -/
def enter (kept : Bool) (place : Place) : TagKind → Place
  | .paragraph | .heading => prose 0
  | .codeBlock | .htmlBlock => verbatim
  | .emphasis | .strong | .strikethrough | .link | .image => place.deeper
  | .blockQuote | .list | .item => if kept then place.closed else place
  | .other => place

/-- Where the events behind a container stand, by where its content ends. -/
def leave (kept : Bool) (place : Place) : TagKind → Place
  | .paragraph | .heading | .codeBlock | .htmlBlock => outside 0
  | .emphasis | .strong | .strikethrough | .link | .image => place.shallower
  | .blockQuote | .item => if kept then place.closed else place
  | .list | .other => place

/-- Where the events behind an event stand. -/
def behind (place : Place) : Event → Place
  | .rule => place.closed
  | _ => place

variable {place place' : Place} {kept : Bool} {kind : TagKind}

@[simp] theorem closed_closed (place : Place) : place.closed.closed = place.closed := by
  cases place <;> rfl

@[simp] theorem prose?_closed (place : Place) : place.closed.prose? = place.prose? := by
  cases place <;> rfl

theorem closed_eq_verbatim : place.closed = .verbatim ↔ place = .verbatim := by
  cases place <;> simp [closed]

theorem exists_prose_of_closed {n : Nat} (h : place.closed = .prose n) : ∃ n, place = .prose n := by
  cases place with
  | prose n => exact ⟨n, rfl⟩
  | outside _ | verbatim => cases h

theorem frames_closed_le (place : Place) : place.closed.frames ≤ place.frames := by
  cases place with
  | outside n => exact Nat.zero_le n
  | prose _ | verbatim => exact Nat.le_refl _

theorem enter_inline (h : Builder.isInlineContainer kind) (kept : Bool) (place : Place) :
    place.enter kept kind = place.deeper := by
  cases kind with
  | emphasis | strong | strikethrough | link | image => rfl
  | _ => cases h

theorem enter_container (h : Builder.isBlockContainer kind) (kept : Bool) (place : Place) :
    place.enter kept kind = if kept then place.closed else place := by
  cases kind with
  | blockQuote | list | item => rfl
  | _ => cases h

theorem leave_inline (h : Builder.isInlineContainer kind) (kept : Bool) (place : Place) :
    place.leave kept kind = place.shallower := by
  cases kind with
  | emphasis | strong | strikethrough | link | image => rfl
  | _ => cases h

theorem leave_container_false (h : Builder.isBlockContainer kind) (place : Place) :
    place.leave false kind = place := by
  cases kind with
  | blockQuote | list | item => rfl
  | _ => cases h

theorem leave_leafBlock (h : kind.isLeafBlock) (kept : Bool) (place : Place) :
    place.leave kept kind = outside 0 := by
  cases kind with
  | paragraph | heading | codeBlock | htmlBlock => rfl
  | _ => cases h

theorem behind_of_ne {event : Event} (h : event ≠ .rule) (place : Place) :
    place.behind event = place := by
  cases event <;> first | rfl | exact absurd rfl h

theorem closed_behind (place : Place) (event : Event) :
    (place.behind event).closed = place.closed := by
  cases event <;> first | rfl | exact closed_closed place

theorem prose?_behind (place : Place) (event : Event) :
    (place.behind event).prose? = place.prose? := by
  cases event <;> first | rfl | exact prose?_closed place

theorem frames_behind_le (place : Place) (event : Event) :
    (place.behind event).frames ≤ place.frames := by
  cases event <;> first | exact Nat.le_refl _ | exact frames_closed_le place

theorem frames_enter_le (place : Place) (kept : Bool) (kind : TagKind) :
    (place.enter kept kind).frames ≤
      place.frames + if Builder.isInlineContainer kind then 1 else 0 := by
  cases kind with
  | paragraph | heading | codeBlock | htmlBlock => exact Nat.zero_le _
  | emphasis | strong | strikethrough | link | image =>
    cases place with
    | outside _ | prose _ => exact Nat.le_refl _
    | verbatim => exact Nat.zero_le _
  | blockQuote | list | item =>
    cases kept with
    | false => exact Nat.le_refl _
    | true => exact frames_closed_le place
  | other => exact Nat.le_refl _

/-- Leaving a container leads back to the leaf block that it was entered in, if it is not a leaf
block in another one. -/
theorem closed_leave (hleaf : kind.isLeafBlock → ∃ n, place = outside n)
    (h : place'.closed = (place.enter kept kind).closed) :
    (place'.leave kept kind).closed = place.closed := by
  cases kind with
  | paragraph | heading | codeBlock | htmlBlock =>
    obtain ⟨n, rfl⟩ := hleaf rfl
    rfl
  | emphasis | strong | strikethrough | link | image =>
    cases place <;> cases place' <;> cases h <;> rfl
  | blockQuote | item | list => cases kept <;> simpa [enter, leave] using h
  | other => exact h

theorem frames_leave_le (h : place'.frames ≤ (place.enter kept kind).frames) :
    (place'.leave kept kind).frames ≤ place.frames := by
  cases kind with
  | paragraph | heading | codeBlock | htmlBlock => exact Nat.zero_le _
  | emphasis | strong | strikethrough | link | image =>
    cases place <;> cases place' <;>
      simp only [enter, leave, deeper, shallower, frames] at h ⊢ <;> omega
  | blockQuote | item =>
    cases kept with
    | false => exact h
    | true => exact Nat.le_trans (frames_closed_le place') (Nat.le_trans h (frames_closed_le place))
  | list =>
    cases kept with
    | false => exact h
    | true => exact Nat.le_trans h (frames_closed_le place)
  | other => exact h

end Place

namespace EventForest

/-! ### Deleting containers -/

/-- Trees put before others. -/
def append : EventForest → EventForest → EventForest
  | nil, other => other
  | event e henter hleave rest, other => event e henter hleave (rest.append other)
  | enclose tag range range' inner rest, other =>
    enclose tag range range' inner (rest.append other)

@[simp] theorem events_append (forest other : EventForest) :
    (forest.append other).events = forest.events ++ other.events := by
  induction forest with
  | nil => rfl
  | event e henter hleave rest ih => simp [append, events, ih]
  | enclose tag range range' inner rest _ ih => simp [append, events, ih]

/-- Whether a container is kept, by the number of block containers that are kept around it, which is
`none` inside of one that is not, and by the number of inline containers around it in a paragraph or
heading, which is `none` outside of these. A quote takes one level of nesting; a list takes two,
since there must be room for its items. -/
def keeps (limit : Nat) (depth prose : Option Nat) : TagKind → Bool
  | .blockQuote => depth.any (· + 1 ≤ limit)
  | .list => depth.any (· + 2 ≤ limit)
  | .item => depth.isSome
  | .emphasis | .strong | .strikethrough | .link | .image => prose.all (· < limit)
  | .paragraph | .heading | .codeBlock | .htmlBlock | .other => true

/-- The number of block containers that are kept around the content of a container. -/
def depthWithin (limit : Nat) (depth prose : Option Nat) (kind : TagKind) : Option Nat :=
  if Builder.isBlockContainer kind then
    if keeps limit depth prose kind then depth.map (· + 1) else none
  else depth

/-- The number of inline containers around the content of a container, in a paragraph or heading. -/
def proseWithin (prose : Option Nat) : TagKind → Option Nat
  | .paragraph | .heading => some 0
  | .codeBlock | .htmlBlock => none
  | .emphasis | .strong | .strikethrough | .link | .image => prose.map (· + 1)
  | .blockQuote | .list | .item | .other => prose

/-- The trees that are left when the containers that do not fit a limit are deleted. -/
def pruned (limit : Nat) : EventForest → Option Nat → Option Nat → EventForest
  | nil, _, _ => nil
  | event e henter hleave rest, depth, prose =>
    event e henter hleave (rest.pruned limit depth prose)
  | enclose tag range range' inner rest, depth, prose =>
    let content := inner.pruned limit (depthWithin limit depth prose tag.kind)
      (proseWithin prose tag.kind)
    let others := rest.pruned limit depth prose
    if keeps limit depth prose tag.kind then enclose tag range range' content others
    else content.append others

/-- How deep block containers are nested; a list is two levels deep at least. -/
def levels : EventForest → Nat
  | nil => 0
  | event _ _ _ rest => rest.levels
  | enclose tag _ _ inner rest =>
    max (match tag.kind with
      | .blockQuote | .item => inner.levels + 1
      | .list => max 2 (inner.levels + 1)
      | _ => inner.levels) rest.levels

/-- How deep inline containers are nested. -/
def inlineLevels : EventForest → Nat
  | nil => 0
  | event _ _ _ rest => rest.inlineLevels
  | enclose tag _ _ inner rest =>
    max (if Builder.isInlineContainer tag.kind then inner.inlineLevels + 1 else inner.inlineLevels)
      rest.inlineLevels

/-- Where the events behind some trees stand. -/
def past (limit : Nat) : EventForest → Option Nat → Place → Place
  | nil, _, place => place
  | event e _ _ rest, depth, place => rest.past limit depth (place.behind e.event)
  | enclose tag _ _ inner rest, depth, place =>
    let kept := keeps limit depth place.prose? tag.kind
    let content := inner.past limit (depthWithin limit depth place.prose? tag.kind)
      (place.enter kept tag.kind)
    rest.past limit depth (content.leave kept tag.kind)

/-- What deleting containers takes for granted: no leaf block stands in another one; there is room
for the inline containers outside of leaf blocks; and the ranges of the inlines in a paragraph end
in the range it is left with. -/
def Foldable (limit : Nat) : EventForest → Option Nat → Place → Prop
  | nil, _, _ => True
  | event e _ _ rest, depth, place => rest.Foldable limit depth (place.behind e.event)
  | enclose tag range range' inner rest, depth, place =>
    (tag.kind.isLeafBlock = true → ∃ n, place = .outside n) ∧
      (Builder.isInlineContainer tag.kind = true → ∀ n, place = .outside n → n < limit) ∧
      (tag.kind = .paragraph →
        ∀ e ∈ inner.events, e.event.isInline = true → e.range.stop ≤ range'.stop) ∧
      inner.Foldable limit (depthWithin limit depth place.prose? tag.kind)
        (place.enter (keeps limit depth place.prose? tag.kind) tag.kind) ∧
      rest.Foldable limit depth
        ((enclose tag range range' inner .nil).past limit depth place)

variable {limit most : Nat} {reach reach' depth : Option Nat} {place : Place} {tag : Tag}
  {range range' : ByteRange} {inner rest : EventForest}

/-- What is left of a container stands before what is left of the trees behind it. -/
theorem events_pruned (limit : Nat) (depth prose : Option Nat) :
    ((enclose tag range range' inner rest).pruned limit depth prose).events =
      ((enclose tag range range' inner .nil).pruned limit depth prose).events ++
        (rest.pruned limit depth prose).events := by
  simp only [pruned]
  split <;> simp [events]

theorem keeps_inline {kind : TagKind} (h : Builder.isInlineContainer kind) (limit : Nat)
    (depth prose : Option Nat) : keeps limit depth prose kind = prose.all (· < limit) := by
  cases kind <;> first | rfl | cases h

theorem keeps_leafBlock {kind : TagKind} (h : kind.isLeafBlock) (limit : Nat)
    (depth prose : Option Nat) : keeps limit depth prose kind = true := by
  cases kind <;> first | rfl | cases h

theorem depthWithin_of_not_container {kind : TagKind} (h : Builder.isBlockContainer kind = false)
    (limit : Nat) (depth prose : Option Nat) : depthWithin limit depth prose kind = depth := by
  rw [depthWithin, h]
  rfl

theorem depthWithin_inline {kind : TagKind} (h : Builder.isInlineContainer kind) (limit : Nat)
    (depth prose : Option Nat) : depthWithin limit depth prose kind = depth :=
  depthWithin_of_not_container (TagKind.isBlockContainer_of_isInlineContainer h) limit depth prose

theorem proseWithin_enter (kept : Bool) (place : Place) (kind : TagKind) :
    proseWithin place.prose? kind = (place.enter kept kind).prose? := by
  cases kind with
  | emphasis | strong | strikethrough | link | image => cases place <;> rfl
  | blockQuote | list | item => cases kept <;> simp [proseWithin, Place.enter]
  | _ => rfl

/-- Behind some trees, the leaf block is the same as before them. -/
theorem closed_past (forest : EventForest) (h : forest.Foldable limit depth place) :
    (forest.past limit depth place).closed = place.closed := by
  induction forest generalizing depth place with
  | nil => rfl
  | event e henter hleave rest ih => exact (ih h).trans (Place.closed_behind place e.event)
  | enclose tag range range' inner rest ih ih' =>
    obtain ⟨hleaf, -, -, hinner, hrest⟩ := h
    exact (ih' hrest).trans (Place.closed_leave hleaf (ih hinner))

theorem prose?_past (forest : EventForest) (h : forest.Foldable limit depth place) :
    (forest.past limit depth place).prose? = place.prose? := by
  rw [← Place.prose?_closed, closed_past forest h, Place.prose?_closed]

/-- Behind some trees, no more inline containers are open than before them. -/
theorem frames_past_le (forest : EventForest) (limit : Nat) (depth : Option Nat) (place : Place) :
    (forest.past limit depth place).frames ≤ place.frames := by
  induction forest generalizing depth place with
  | nil => exact Nat.le_refl _
  | event e henter hleave rest ih =>
    exact Nat.le_trans (ih depth _) (Place.frames_behind_le place e.event)
  | enclose tag range range' inner rest ih ih' =>
    exact Nat.le_trans (ih' depth _) (Place.frames_leave_le (ih _ _))

/-! ### What a run takes for granted -/

theorem levels_container (htag : Builder.isBlockContainer tag.kind) (range range' : ByteRange)
    (inner rest : EventForest) :
    inner.levels + 1 ≤ (enclose tag range range' inner rest).levels := by
  cases tag with
  | blockQuote | item => exact Nat.le_max_left _ _
  | list _ => exact Nat.le_trans (Nat.le_max_right _ _) (Nat.le_max_left _ _)
  | _ => cases htag

theorem levels_inner (tag : Tag) (range range' : ByteRange) (inner rest : EventForest) :
    inner.levels ≤ (enclose tag range range' inner rest).levels := by
  by_cases htag : Builder.isBlockContainer tag.kind
  · exact Nat.le_of_succ_le (levels_container htag range range' inner rest)
  · cases tag <;> first | exact Nat.le_max_left _ _ | exact absurd rfl htag

/-- What the run over a forest takes for granted: containers can be deleted from it, its inlines do
not reach beyond a position, and a limit is large enough for all its containers. -/
structure Suits (limit most : Nat) (reach depth : Option Nat) (place : Place)
    (forest : EventForest) : Prop where
  foldable : forest.Foldable limit depth place
  stops : ∀ r ∈ reach, ∀ e ∈ forest.events, e.event.isInline = true → e.range.stop ≤ r
  levels : ∀ k ∈ depth, k + forest.levels ≤ most
  inlines : place.frames + forest.inlineLevels ≤ most

namespace Suits

theorem behind {e : RangedEvent} {henter : ∀ tag, e.event ≠ .enter tag}
    {hleave : ∀ kind, e.event ≠ .leave kind}
    (h : (event e henter hleave rest).Suits limit most reach depth place) :
    rest.Suits limit most reach depth (place.behind e.event) :=
  ⟨h.foldable, fun r hr e he => h.stops r hr e (.tail _ he), h.levels,
    Nat.le_trans (Nat.add_le_add_right (Place.frames_behind_le place e.event) _) h.inlines⟩

theorem single (h : (enclose tag range range' inner rest).Suits limit most reach depth place) :
    (enclose tag range range' inner .nil).Suits limit most reach depth place := by
  obtain ⟨⟨hleaf, hroom, hparagraph, hinner, -⟩, hstops, hlevels, hinlines⟩ := h
  refine ⟨⟨hleaf, hroom, hparagraph, hinner, trivial⟩, fun r hr e he => hstops r hr e ?_,
    fun k hk => ?_, ?_⟩
  · simp only [events, List.mem_cons, List.mem_append, List.not_mem_nil] at he ⊢
    tauto
  · have := hlevels k hk
    simp only [EventForest.levels] at this ⊢
    omega
  · simp only [EventForest.inlineLevels] at hinlines ⊢
    omega

/-- The trees behind a container. -/
theorem others (h : (enclose tag range range' inner rest).Suits limit most reach depth place) :
    rest.Suits limit most reach depth
      ((enclose tag range range' inner .nil).past limit depth place) := by
  obtain ⟨⟨-, -, -, -, hfoldable⟩, hstops, hlevels, hinlines⟩ := h
  refine ⟨hfoldable, fun r hr e he => hstops r hr e ?_, fun k hk => ?_, ?_⟩
  · simp [events, he]
  · exact Nat.le_trans (Nat.add_le_add_left (Nat.le_max_right _ _) k) (hlevels k hk)
  · have := frames_past_le (enclose tag range range' inner .nil) limit depth place
    exact Nat.le_trans (Nat.add_le_add this (Nat.le_max_right _ _)) hinlines

/-- The content of a container, which may be bounded by another position. -/
theorem content (h : (enclose tag range range' inner rest).Suits limit most reach depth place)
    (hstops : ∀ r ∈ reach', ∀ e ∈ inner.events, e.event.isInline = true → e.range.stop ≤ r) :
    inner.Suits limit most reach' (depthWithin limit depth place.prose? tag.kind)
      (place.enter (keeps limit depth place.prose? tag.kind) tag.kind) := by
  obtain ⟨⟨-, -, -, hinner, -⟩, -, hlevels, hinlines⟩ := h
  refine ⟨hinner, hstops, fun k hk => ?_, Nat.le_trans ?_ hinlines⟩
  · unfold depthWithin at hk
    split at hk
    next hblock =>
      split at hk
      · obtain ⟨outer, houter, rfl⟩ := Option.map_eq_some_iff.1 hk
        have := hlevels outer houter
        have := levels_container hblock range range' inner rest
        omega
      · cases hk
    · exact Nat.le_trans (Nat.add_le_add_left (levels_inner tag range range' inner rest) k)
        (hlevels k hk)
  · have frames := Place.frames_enter_le place
      (EventForest.keeps limit depth place.prose? tag.kind) tag.kind
    simp only [EventForest.inlineLevels]
    by_cases hinline : Builder.isInlineContainer tag.kind
    · rw [if_pos hinline] at frames ⊢
      omega
    · rw [if_neg hinline] at frames ⊢
      omega

/-- The large limit has room for a block container that the other one keeps. -/
theorem keeps {k : Nat} (htag : Builder.isBlockContainer tag.kind)
    (h : (enclose tag range range' inner rest).Suits limit most reach (some k) place)
    (prose : Option Nat) : EventForest.keeps most (some k) prose tag.kind = true := by
  have levels := h.levels k rfl
  cases tag with
  | blockQuote =>
    have := levels_container htag range range' inner rest
    refine decide_eq_true (?_ : k + 1 ≤ most)
    omega
  | list first =>
    have : 2 ≤ (enclose (.list first) range range' inner rest).levels :=
      Nat.le_trans (Nat.le_max_left _ _) (Nat.le_max_left _ _)
    refine decide_eq_true (?_ : k + 2 ≤ most)
    omega
  | item => rfl
  | _ => cases htag

end Suits

end EventForest

end MarkdownSpans
