import MarkdownSpans.Proofs.Document.Nesting
import MarkdownSpans.Tree.Builder

/-!
# The cap on inline containers

An open leaf is within the limit when every open inline container of it is, at the number of those
outside of it. Leaving one puts a single container around what is in it, and what is added to the
innermost one is nested no deeper than the limit leaves there.
-/

namespace MarkdownSpans

/-! ### Inlines -/

theorem within_pushInline {n : Nat} {inline : Inline} {is : List Inline} (hi : inline.Within n)
    (h : ∀ i ∈ is, i.Within n) : ∀ i ∈ pushInline inline is, i.Within n := by
  unfold pushInline
  split
  next previous rest =>
    have hrest : ∀ i ∈ rest, i.Within n := fun i hi => h i (List.mem_cons_of_mem _ hi)
    split
    · exact List.forall_mem_cons.2 ⟨.literal _, hrest⟩
    · exact List.forall_mem_cons.2 ⟨hi, h⟩
  · exact List.forall_mem_cons.2 ⟨hi, h⟩

theorem within_pushInlines {n : Nat} {inlines is : List Inline} (hi : ∀ i ∈ inlines, i.Within n)
    (h : ∀ i ∈ is, i.Within n) : ∀ i ∈ pushInlines inlines is, i.Within n := by
  induction inlines generalizing is with
  | nil => exact h
  | cons inline rest ih =>
    rw [List.forall_mem_cons] at hi
    exact ih hi.2 (within_pushInline hi.1 h)

/-- Leaving an inline container puts at most one container around its content. -/
theorem FrameKind.within_close {n : Nat} {children : List Inline} (kind : FrameKind)
    (h : ∀ i ∈ children, i.Within n) : ∀ i ∈ kind.close children, i.Within (n + 1) := by
  cases kind with
  | emphasis delimiter count =>
    exact List.forall_mem_singleton.2 (.emphasis delimiter count h)
  | strikethrough run =>
    by_cases hrun : run = 2
    · rw [close, if_pos hrun]
      exact List.forall_mem_singleton.2 (.emphasis '~' 2 h)
    · rw [close, if_neg hrun]
      exact List.forall_mem_cons.2 ⟨.delimiter _ h, List.forall_mem_singleton.2 (.literal _)⟩
  | link type url title isImage =>
    cases type with
    | autolink => exact List.forall_mem_singleton.2 (.autolink url false)
    | email => exact List.forall_mem_singleton.2 (.autolink _ true)
    | inline | reference | collapsed | shortcut =>
      exact List.forall_mem_singleton.2 (.link url _ isImage h)

/-! ### Leaves -/

/-- Open inline containers, innermost first, fit the limit, and so does what is in each of them. -/
def FramesCapped (d : Nat) : List Frame → Prop
  | [] => True
  | frame :: rest =>
    rest.length < d ∧ (∀ i ∈ frame.reversed, i.Within (d - (rest.length + 1))) ∧
      FramesCapped d rest

/-- The inlines of an open leaf fit the limit. -/
structure Leaf.Capped (d : Nat) (leaf : Leaf) : Prop where
  root : ∀ i ∈ leaf.root, i.Within d
  frames : FramesCapped d leaf.frames

namespace Leaf

variable {d : Nat} {leaf : Leaf} {inline : Inline}

theorem length_frames_push (inline : Inline) (leaf : Leaf) :
    (leaf.push inline).frames.length = leaf.frames.length := by
  unfold push
  split <;> simp [*]

namespace Capped

theorem push (h : leaf.Capped d) (hi : inline.Within (d - leaf.frames.length)) :
    (leaf.push inline).Capped d := by
  obtain ⟨hroot, hframes⟩ := h
  unfold Leaf.push
  split
  next hnil =>
    rw [hnil] at hi
    exact ⟨within_pushInline hi hroot, hframes⟩
  next frame rest hcons =>
    rw [hcons] at hi hframes
    exact ⟨hroot, hframes.1, within_pushInline hi hframes.2.1, hframes.2.2⟩

theorem foldl_push {inlines : List Inline} (h : leaf.Capped d)
    (hi : ∀ i ∈ inlines, i.Within (d - leaf.frames.length)) :
    (inlines.foldl (fun leaf inline => leaf.push inline) leaf).Capped d := by
  induction inlines generalizing leaf with
  | nil => exact h
  | cons inline rest ih =>
    rw [List.forall_mem_cons] at hi
    refine ih (h.push hi.1) ?_
    rw [length_frames_push]
    exact hi.2

theorem openFrame (h : leaf.Capped d) (kind : FrameKind) (hfits : leaf.frames.length < d) :
    (leaf.openFrame kind).Capped d :=
  ⟨h.root, hfits, List.forall_mem_nil _, h.frames⟩

theorem closeFrame (h : leaf.Capped d) : leaf.closeFrame.Capped d := by
  obtain ⟨hroot, hframes⟩ := h
  unfold Leaf.closeFrame
  split
  · exact ⟨hroot, hframes⟩
  next frame rest hcons =>
    rw [hcons] at hframes
    obtain ⟨hfits, hchildren, hrest⟩ := hframes
    have closed : ∀ i ∈ frame.kind.close frame.reversed.reverse, i.Within (d - rest.length) := by
      intro i hi
      have hchild : ∀ i ∈ frame.reversed.reverse, i.Within (d - (rest.length + 1)) :=
        fun i hi => hchildren i (List.mem_reverse.1 hi)
      exact (frame.kind.within_close hchild i hi).mono (by omega)
    have outer : ({ leaf with frames := rest } : Leaf).Capped d := ⟨hroot, hrest⟩
    exact outer.foldl_push closed

end Capped

/-- The inlines of a leaf whose inline containers are left fit the limit. -/
theorem within_foldFrames {root added : List Inline} {frames : List Frame}
    (hroot : ∀ i ∈ root, i.Within d) (hadded : ∀ i ∈ added, i.Within (d - frames.length))
    (hframes : FramesCapped d frames) : ∀ i ∈ foldFrames root added frames, i.Within d := by
  induction frames generalizing added with
  | nil =>
    intro i hi
    exact within_pushInlines hadded hroot i (List.mem_reverse.1 hi)
  | cons frame rest ih =>
    obtain ⟨hfits, hchildren, hrest⟩ := hframes
    refine ih (fun i hi => ?_) hrest
    have hchild : ∀ j ∈ (pushInlines added frame.reversed).reverse,
        j.Within (d - (rest.length + 1)) :=
      fun j hj => within_pushInlines hadded hchildren j (List.mem_reverse.1 hj)
    exact (frame.kind.within_close hchild i hi).mono (by omega)

theorem Capped.within_inlines (h : leaf.Capped d) : ∀ i ∈ leaf.inlines, i.Within d :=
  within_foldFrames h.root (List.forall_mem_nil _) h.frames

end Leaf

end MarkdownSpans
