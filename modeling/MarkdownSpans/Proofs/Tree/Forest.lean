import MarkdownSpans.Proofs.Tree.Deepest

/-!
# Balanced events as forests

Balanced events are the events of a forest: each of its trees is one event or a container with a
forest inside. What a run over balanced events does is proved by induction on the forest, where the
event that leaves a container is known with the one that enters it.
-/

namespace MarkdownSpans

/-- A forest of events, given by its first tree and the trees behind it. -/
inductive EventForest where
  | nil
  /-- An event that neither enters nor leaves a container, and the trees behind it. -/
  | event (e : RangedEvent) (henter : ∀ tag, e.event ≠ .enter tag)
    (hleave : ∀ kind, e.event ≠ .leave kind) (rest : EventForest)
  /-- A container, with the ranges it is entered and left with, and the trees behind it. -/
  | enclose (tag : Tag) (range range' : ByteRange) (inner rest : EventForest)

namespace EventForest

/-- The events of a forest in order. -/
def events : EventForest → List RangedEvent
  | nil => []
  | event e _ _ rest => e :: rest.events
  | enclose tag range range' inner rest =>
    ⟨.enter tag, range⟩ :: (inner.events ++ ⟨.leave tag.kind, range'⟩ :: rest.events)

/-- The balanced events are those of forests. -/
theorem balanced_iff {events : List RangedEvent} :
    Balanced events ↔ ∃ forest : EventForest, forest.events = events := by
  constructor
  · intro h
    induction h with
    | nil => exact ⟨nil, rfl⟩
    | cons henter hleave _ ih =>
      obtain ⟨rest, rfl⟩ := ih
      exact ⟨event _ henter hleave rest, rfl⟩
    | enclose tag range range' _ _ ih ih' =>
      obtain ⟨inner, rfl⟩ := ih
      obtain ⟨rest, rfl⟩ := ih'
      exact ⟨.enclose tag range range' inner rest, rfl⟩
  · rintro ⟨forest, rfl⟩
    induction forest with
    | nil => exact .nil
    | event e henter hleave rest ih => exact .cons henter hleave ih
    | enclose tag range range' inner rest ih ih' => exact .enclose tag range range' ih ih'

/-- A run over a container first enters it, then runs over its content, then leaves it. -/
theorem run_enclose (b : Builder) (tag : Tag) (range range' : ByteRange)
    (inner rest : EventForest) :
    b.run (enclose tag range range' inner rest).events =
      (b.enter tag range).bind fun b₁ => (b₁.run inner.events).bind fun b₂ =>
        (b₂.leave tag.kind range').bind (·.run rest.events) := by
  rw [events, Builder.run_cons]
  refine congrArg _ (funext fun b₁ => ?_)
  rw [Builder.run_append]
  exact congrArg _ (funext fun b₂ => Builder.run_cons b₂ _ _)

/-- A run over a container that comes to an end, cut where the container is entered and left. -/
theorem exists_of_run_enclose {b b' : Builder} {tag : Tag} {range range' : ByteRange}
    {inner rest : EventForest}
    (h : b.run (enclose tag range range' inner rest).events = some b') :
    ∃ b₁ b₂ b₃, b.enter tag range = some b₁ ∧ b₁.run inner.events = some b₂ ∧
      b₂.leave tag.kind range' = some b₃ ∧ b₃.run rest.events = some b' := by
  simp only [run_enclose, Option.bind_eq_some_iff] at h
  obtain ⟨b₁, henter, b₂, hinner, b₃, hleave, hrest⟩ := h
  exact ⟨b₁, b₂, b₃, henter, hinner, hleave, hrest⟩

/-- A run over one event and what is behind it, cut behind the event. -/
theorem exists_of_run_event {b b' : Builder} {e : RangedEvent} {rest : List RangedEvent}
    (h : b.run (e :: rest) = some b') : ∃ b₁, b.step e = some b₁ ∧ b₁.run rest = some b' :=
  Option.bind_eq_some_iff.1 ((Builder.run_cons b e rest).symm.trans h)

/-- Every container is left with the range that it is entered with. -/
def Paired : EventForest → Prop
  | nil => True
  | event _ _ _ rest => rest.Paired
  | enclose _ range range' inner rest => range' = range ∧ inner.Paired ∧ rest.Paired

end EventForest

end MarkdownSpans
