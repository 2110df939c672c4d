import Mathlib.Data.List.Induction
import MarkdownSpans.Proofs.Tree.EventTree

/-!
# Inline events in an open leaf

The events of an inline tree, fed to a builder with a leaf open, add the inlines of the tree to the
innermost inline container of the leaf and leave everything else as it is
(`InlineTree.Fits.appends`). The literals that the builder joins one by one are the joined literals
of the translation (`reverse_pushInlines`).
-/

namespace MarkdownSpans

/-! ### Joined literals -/

/-- An inline is joined to the first one only. -/
theorem prependInline_cons (i j : Inline) (is : List Inline) :
    prependInline i (j :: is) = prependInline i [j] ++ is := by
  cases i <;> cases j <;> rfl

/-- An inline is joined to the last one only. -/
theorem pushInline_cons (i j : Inline) (reversed : List Inline) :
    pushInline i (j :: reversed) = pushInline i [j] ++ reversed := by
  cases i <;> cases j <;> rfl

theorem prependInline_nil (i : Inline) : prependInline i [] = [i] := by
  cases i <;> rfl

theorem pushInline_nil (i : Inline) : pushInline i [] = [i] := by
  cases i <;> rfl

/-- Of two inlines, joining the first to the second is joining the second to the first. -/
theorem reverse_pushInline_singleton (i j : Inline) :
    (pushInline j [i]).reverse = prependInline i [j] := by
  cases i <;> cases j <;> rfl

theorem pushInline_append (i : Inline) {reversed : List Inline} (h : reversed ≠ [])
    (outer : List Inline) :
    pushInline i (reversed ++ outer) = pushInline i reversed ++ outer := by
  obtain ⟨last, rest, rfl⟩ := List.exists_cons_of_ne_nil h
  rw [List.cons_append, pushInline_cons, pushInline_cons i last rest, List.append_assoc]

theorem prependInline_of_not_literal {j : Inline} (h : ∀ text, j ≠ .literal text) (i : Inline)
    (is : List Inline) : prependInline i (j :: is) = i :: j :: is := by
  unfold prependInline
  split <;> simp_all

theorem pushInline_of_not_literal {j : Inline} (h : ∀ text, j ≠ .literal text) (i : Inline)
    (reversed : List Inline) : pushInline i (j :: reversed) = i :: j :: reversed := by
  unfold pushInline
  split <;> simp_all

/-- Joining at one end and joining at the other do not get into each other's way. -/
theorem prependInline_pushInline (i j : Inline) (is : List Inline) :
    prependInline i (pushInline j is.reverse).reverse =
      (pushInline j (prependInline i is).reverse).reverse := by
  match is with
  | [] =>
    rw [List.reverse_nil, pushInline_nil, prependInline_nil, List.reverse_singleton,
      List.reverse_singleton, reverse_pushInline_singleton]
  | [k] =>
    by_cases h : ∀ text, k ≠ .literal text
    · simp [prependInline_of_not_literal h, pushInline_of_not_literal h]
    · -- The one literal may be joined from both sides.
      obtain ⟨text, rfl⟩ : ∃ text, k = .literal text := by simpa using h
      cases i <;> cases j <;> simp [prependInline, pushInline, String.append_assoc]
  | k :: l :: rest =>
    -- Both ends are apart.
    rw [prependInline_cons i k (l :: rest), List.reverse_append, List.reverse_cons,
      pushInline_append j (by simp), pushInline_append j (by simp), List.reverse_append,
      List.reverse_append, List.reverse_reverse, List.reverse_singleton, List.singleton_append,
      prependInline_cons]

/-- A last inline is joined to what is joined already. -/
theorem joinLiterals_concat (is : List Inline) (j : Inline) :
    joinLiterals (is ++ [j]) = (pushInline j (joinLiterals is).reverse).reverse := by
  induction is with
  | nil => simp [joinLiterals, prependInline_nil, pushInline_nil]
  | cons i rest ih =>
    show prependInline i (joinLiterals (rest ++ [j])) =
      (pushInline j (prependInline i (joinLiterals rest)).reverse).reverse
    rw [ih, prependInline_pushInline]

/-- The literals that are joined one by one are the joined literals. -/
theorem reverse_pushInlines (is : List Inline) :
    (pushInlines is []).reverse = joinLiterals is := by
  induction is using List.reverseRecOn with
  | nil => rfl
  | append_singleton is j ih =>
    rw [joinLiterals_concat, ← ih, List.reverse_reverse, pushInlines, List.foldl_append,
      List.foldl_cons, List.foldl_nil, pushInlines]

/-! ### Leaves -/

namespace Leaf

/-- Add inlines to the innermost container of a leaf one after another. -/
def pushAll (is : List Inline) (leaf : Leaf) : Leaf :=
  is.foldl (fun leaf i => leaf.push i) leaf

variable (leaf : Leaf) (is js : List Inline)

theorem pushAll_append : leaf.pushAll (is ++ js) = (leaf.pushAll is).pushAll js :=
  List.foldl_append

theorem pushAll_root {leaf : Leaf} (h : leaf.frames = []) :
    leaf.pushAll is = { leaf with root := pushInlines is leaf.root } := by
  induction is generalizing leaf with
  | nil => rfl
  | cons i rest ih =>
    have head : leaf.push i = { leaf with root := pushInline i leaf.root } := by simp [push, h]
    show (leaf.push i).pushAll rest = _
    rw [head, ih (by exact h)]
    rfl

theorem pushAll_frame {leaf : Leaf} {frame : Frame} {rest : List Frame}
    (h : leaf.frames = frame :: rest) :
    leaf.pushAll is =
      { leaf with frames := { frame with reversed := pushInlines is frame.reversed } :: rest } := by
  induction is generalizing leaf frame with
  | nil =>
    obtain ⟨kind, start, stop, linesBefore, root, frames⟩ := leaf
    subst h
    rfl
  | cons i tail ih =>
    have head : leaf.push i =
        { leaf with frames := { frame with reversed := pushInline i frame.reversed } :: rest } := by
      simp [push, h]
    show (leaf.push i).pushAll tail = _
    rw [head, ih rfl]
    rfl

@[simp] theorem pushAll_kind : (leaf.pushAll is).kind = leaf.kind := by
  cases h : leaf.frames with
  | nil => rw [pushAll_root is h]
  | cons frame rest => rw [pushAll_frame is h]

@[simp] theorem pushAll_frames_length :
    (leaf.pushAll is).frames.length = leaf.frames.length := by
  cases h : leaf.frames with
  | nil => rw [pushAll_root is h, h]
  | cons frame rest => rw [pushAll_frame is h, List.length_cons, List.length_cons]

/-- A leaf that reaches to a position. -/
def stopAt (stop : Nat) (leaf : Leaf) : Leaf := { leaf with stop }

@[simp] theorem stopAt_kind (stop : Nat) : (leaf.stopAt stop).kind = leaf.kind := rfl

@[simp] theorem stopAt_frames (stop : Nat) : (leaf.stopAt stop).frames = leaf.frames := rfl

@[simp] theorem stopAt_stopAt (stop stop' : Nat) :
    (leaf.stopAt stop).stopAt stop' = leaf.stopAt stop' := rfl

/-- How far a leaf reaches does not matter for the inlines in it. -/
theorem pushAll_stopAt (stop : Nat) :
    (leaf.stopAt stop).pushAll is = (leaf.pushAll is).stopAt stop := by
  cases h : leaf.frames with
  | nil => rw [pushAll_root is h, pushAll_root is (by simp [h])]; rfl
  | cons frame rest => rw [pushAll_frame is h, pushAll_frame is (by rw [stopAt_frames, h])]; rfl

/-- A container with some inlines in it that is left adds what it stands for. -/
theorem closeFrame_pushAll_openFrame (kind : FrameKind) :
    ((leaf.openFrame kind).pushAll is).closeFrame =
      leaf.pushAll (kind.close (joinLiterals is)) := by
  rw [pushAll_frame is rfl, ← reverse_pushInlines]
  rfl

/-- A leaf with inlines in it and no container open. -/
def holding (kind : LeafKind) (start stop : Nat) (linesBefore : Option (List Line))
    (is : List Inline) : Leaf :=
  { kind, start, stop, linesBefore, root := pushInlines is [] }

section Holding

variable {kind : LeafKind} {start stop : Nat} {linesBefore : Option (List Line)}

theorem inlines_holding : (holding kind start stop linesBefore is).inlines = joinLiterals is := by
  rw [← reverse_pushInlines]
  rfl

theorem pushAll_holding (stop' : Nat) :
    ((holding kind start stop linesBefore is).pushAll js).stopAt stop' =
      holding kind start stop' linesBefore (is ++ js) := by
  rw [pushAll_root js rfl]
  simp only [holding, stopAt, pushInlines, List.foldl_append]

end Holding

end Leaf

/-! ### Runs -/

/-- Whether a leaf holds inlines. -/
def LeafKind.holdsInlines : LeafKind → Bool
  | paragraph _ | heading _ => true
  | _ => false

/-- The kind of container that is opened for a tag at a place of the source. -/
def InlineTag.frameKind (rest : List Char) : InlineTag → FrameKind
  | emphasis => .emphasis (rest.head?.getD '*') 1
  | strong => .emphasis (rest.head?.getD '*') 2
  | strikethrough => .strikethrough (rest.takeWhile (· == '~')).length
  | link isImage type url title => .link type url title isImage

theorem InlineTag.close_frameKind (rest : List Char) (children : List Inline) (tag : InlineTag) :
    (tag.frameKind rest).close children = tag.inlines rest children := by
  cases tag with
  | emphasis | strong => rfl
  | strikethrough =>
    -- A run of tildes is known by its length.
    have run : List.replicate (rest.takeWhile (· == '~')).length '~' =
        rest.takeWhile (· == '~') := by
      refine (List.eq_replicate_of_mem fun c hc => ?_).symm
      simpa using List.all_eq_true.1 List.all_takeWhile c hc
    simp [frameKind, FrameKind.close, inlines, run]
  | link isImage type url title => cases type <;> simp [frameKind, FrameKind.close, inlines]

namespace Builder

/-- A builder that waits for no definitions and has skipped no containers. -/
def still (source : List Char) (options : BuildOptions) (containers : List Container)
    (leaf : Option Leaf) (cursor : Nat) : Builder where
  source := source
  options := options
  containers := containers
  leaf := leaf
  definitions := []
  cursor := cursor
  skippedContainers := 0
  skippedFrames := 0

/-- What is entered, what is in it and what leaves it are run one after another. -/
theorem run_within {b entered filled done : Builder} {e e' : RangedEvent}
    {content : List RangedEvent} (henter : b.step e = some entered)
    (hcontent : entered.run content = some filled) (hleave : filled.step e' = some done) :
    b.run (e :: (content ++ [e'])) = some done := by
  rw [run_cons, henter, Option.bind_some, run_append, hcontent, Option.bind_some, run_cons,
    hleave, Option.bind_some, run_nil]

section Inlines

variable {source : List Char} {options : BuildOptions} {containers : List Container}
  {leaf : Leaf} {cursor : Nat} {range : ByteRange}

/-- An inline is added to the leaf that is open and extends it. -/
theorem addInline_of_leaf {b : Builder} (h : b.leaf = some leaf) (i : Inline)
    (range : ByteRange) :
    b.addInline i range =
      some { b with leaf := some ((leaf.pushAll [i]).stopAt (max leaf.stop range.stop)) } := by
  rw [← Leaf.pushAll_stopAt]
  simp [addInline, ensureLeaf, h, mapLeaf, Leaf.pushAll, Leaf.stopAt]

theorem addInline_still (i : Inline) (range : ByteRange) :
    (still source options containers (some leaf) cursor).addInline i range =
      some (still source options containers
        (some ((leaf.pushAll [i]).stopAt (max leaf.stop range.stop))) cursor) :=
  addInline_of_leaf rfl i range

/-- Where inlines may stand, a run of text is added as one. -/
theorem addText_of_slice {b : Builder} {raw before : List Char}
    (h : ∀ leaf ∈ b.leaf, leaf.kind.holdsInlines)
    (hraw : sliceChars b.source range.start range.stop = some raw)
    (hbefore : takeBytes b.source range.start = some before) (content : String) :
    b.addText content range = b.addInline (textInline b.options content raw before) range := by
  cases hleaf : b.leaf with
  | none => simp [addText, hleaf, hraw, hbefore]
  | some leaf =>
    have holds := h leaf hleaf
    obtain ⟨kind, start, stop, linesBefore, root, frames⟩ := leaf
    cases kind with
    | paragraph _ | heading _ => simp [addText, hleaf, hraw, hbefore]
    | code _ _ | html _ => cases holds

theorem addText_still (h : leaf.kind.holdsInlines) (hrange : range.Fits source)
    (content : String) :
    (still source options containers (some leaf) cursor).addText content range =
      (still source options containers (some leaf) cursor).addInline
        (textInline options content (InlineTree.sourceIn source range)
          (InlineTree.sourceTo source range.start)) range := by
  obtain ⟨raw, hraw, -⟩ := hrange.start.exists_slice hrange.stop hrange.le
  obtain ⟨before, -, -, -, hbefore, -⟩ := hrange.start.exists_take
  have holds : ∀ leaf' ∈ some leaf, leaf'.kind.holdsInlines := by
    rintro _ ⟨⟩
    exact h
  rw [addText_of_slice holds hraw hbefore]
  simp only [InlineTree.sourceIn, InlineTree.sourceTo, hraw, hbefore, Option.getD_some]
  rfl

theorem addBreak_still (hrange : range.Fits source) (hard : Bool) :
    (still source options containers (some leaf) cursor).addBreak hard range =
      (still source options containers (some leaf) cursor).addInline
        (.lineBreak (breakNewline (InlineTree.sourceIn source range)) hard) range := by
  obtain ⟨raw, hraw, -⟩ := hrange.start.exists_slice hrange.stop hrange.le
  simp [addBreak, still, InlineTree.sourceIn, hraw]

theorem enter_still (hrange : range.Fits source) (hdepth : leaf.frames.length < options.maxDepth)
    (tag : InlineTag) :
    (still source options containers (some leaf) cursor).enter tag.tag range =
      some (still source options containers
        (some ((leaf.stopAt (max leaf.stop range.stop)).openFrame
          (tag.frameKind (InlineTree.sourceFrom source range.start)))) cursor) := by
  obtain ⟨-, rest, -, -, -, hrest⟩ := hrange.start.exists_take
  rcases tag with _ | _ | _ | ⟨_ | _, _, _, _⟩ <;>
    simp [InlineTag.tag, InlineTag.frameKind, enter, enterFrame, ensureLeaf, still, mapLeaf, hrest,
      hdepth, InlineTree.sourceFrom, Leaf.stopAt]

theorem leave_still (tag : InlineTag) (range : ByteRange) :
    (still source options containers (some leaf) cursor).leave tag.tag.kind range =
      some (still source options containers (some leaf.closeFrame) cursor) := by
  rcases tag with _ | _ | _ | ⟨_ | _, _, _, _⟩ <;> rfl

end Inlines

/-- Events that add inlines to every leaf that has room for `n` more containers and otherwise only
move its end. -/
def Appends (source : List Char) (options : BuildOptions) (n : Nat) (events : List RangedEvent)
    (is : List Inline) : Prop :=
  ∀ containers leaf cursor, leaf.kind.holdsInlines → leaf.frames.length + n ≤ options.maxDepth →
    IsPosition source leaf.stop →
    ∃ stop, leaf.stop ≤ stop ∧ IsPosition source stop ∧
      (still source options containers (some leaf) cursor).run events =
        some (still source options containers (some ((leaf.pushAll is).stopAt stop)) cursor)

namespace Appends

variable {source : List Char} {options : BuildOptions} {n : Nat}
  {events events' : List RangedEvent} {is js : List Inline} {range : ByteRange}

theorem nil : Appends source options n [] [] := fun _ leaf _ _ _ hstop =>
  ⟨leaf.stop, Nat.le_refl _, hstop, rfl⟩

theorem append (h : Appends source options n events is)
    (h' : Appends source options n events' js) :
    Appends source options n (events ++ events') (is ++ js) := by
  intro containers leaf cursor hkind hdepth hstop
  obtain ⟨stop, hle, hposition, hrun⟩ := h containers leaf cursor hkind hdepth hstop
  obtain ⟨stop', hle', hposition', hrun'⟩ :=
    h' containers ((leaf.pushAll is).stopAt stop) cursor (by simpa using hkind)
      (by simpa using hdepth) hposition
  refine ⟨stop', Nat.le_trans hle hle', hposition', ?_⟩
  rw [run_append, hrun, Option.bind_some, hrun', Leaf.pushAll_stopAt, ← Leaf.pushAll_append,
    Leaf.stopAt_stopAt]

/-- One event that adds one inline. -/
theorem single {e : RangedEvent} {i : Inline} (hrange : range.Fits source)
    (h : ∀ containers leaf cursor, leaf.kind.holdsInlines →
      (still source options containers (some leaf) cursor).step e =
        (still source options containers (some leaf) cursor).addInline i range) :
    Appends source options n [e] [i] := by
  intro containers leaf cursor hkind _ hstop
  refine ⟨max leaf.stop range.stop, Nat.le_max_left .., hstop.max hrange.stop, ?_⟩
  rw [run_cons, h containers leaf cursor hkind, addInline_still, Option.bind_some, run_nil]

/-- A container that is entered and left adds what stands for it. -/
theorem container (h : Appends source options n events is) (hrange : range.Fits source)
    (tag : InlineTag) (left : ByteRange) :
    Appends source options (n + 1)
      (⟨.enter tag.tag, range⟩ :: (events ++ [⟨.leave tag.tag.kind, left⟩]))
      (tag.inlines (InlineTree.sourceFrom source range.start) (joinLiterals is)) := by
  intro containers leaf cursor hkind hdepth hstop
  have entered : IsPosition source (max leaf.stop range.stop) := hstop.max hrange.stop
  set kind := tag.frameKind (InlineTree.sourceFrom source range.start) with kind_eq
  obtain ⟨stop, hle, hposition, hrun⟩ :=
    h containers ((leaf.stopAt (max leaf.stop range.stop)).openFrame kind) cursor hkind
      (by show leaf.frames.length + 1 + n ≤ _; omega) entered
  refine ⟨stop, Nat.le_trans (Nat.le_max_left ..) hle, hposition, ?_⟩
  have closed : (((leaf.stopAt (max leaf.stop range.stop)).openFrame kind).pushAll
      is).stopAt stop = ((leaf.stopAt stop).openFrame kind).pushAll is :=
    (Leaf.pushAll_stopAt ..).symm
  refine run_within (enter_still hrange (by omega) tag) hrun ?_
  show (still source options containers _ cursor).leave tag.tag.kind left = _
  rw [leave_still, closed, Leaf.closeFrame_pushAll_openFrame, kind_eq, InlineTag.close_frameKind,
    Leaf.pushAll_stopAt]

/-- The events add to the inlines of a leaf with no container open. -/
theorem run_holding (h : Appends source options n events js) (hdepth : n ≤ options.maxDepth)
    (kind : LeafKind) (hkind : kind.holdsInlines) {stop : Nat} (hstop : IsPosition source stop)
    (containers : List Container) (cursor start : Nat) (lines : Option (List Line)) :
    ∃ stop', stop ≤ stop' ∧ IsPosition source stop' ∧
      (still source options containers (some (Leaf.holding kind start stop lines is))
        cursor).run events =
      some (still source options containers
        (some (Leaf.holding kind start stop' lines (is ++ js))) cursor) := by
  obtain ⟨stop', hle, hposition, hrun⟩ :=
    h containers (Leaf.holding kind start stop lines is) cursor hkind
      (by simpa [Leaf.holding] using hdepth) hstop
  exact ⟨stop', hle, hposition, by rw [hrun, Leaf.pushAll_holding]⟩

end Appends

end Builder

namespace InlineTree

variable {source : List Char} {n : Nat}

theorem listInlines_append (options : BuildOptions) (ts ts' : List InlineTree) :
    listInlines source options (ts ++ ts') =
      listInlines source options ts ++ listInlines source options ts' := by
  induction ts with
  | nil => rfl
  | cons t rest ih => simp only [List.cons_append, listInlines, ih, List.append_assoc]

theorem appends_list {options : BuildOptions} {ts : List InlineTree}
    (h : ∀ t ∈ ts, Builder.Appends source options n t.events (t.inlines source options)) :
    Builder.Appends source options n (listEvents ts) (listInlines source options ts) := by
  induction ts with
  | nil => exact .nil
  | cons t rest ih =>
    exact (h t (.head _)).append (ih fun t ht => h t (.tail _ ht))

/-- The events of a tree add its inlines. -/
theorem Fits.appends {t : InlineTree} (h : t.Fits source n) (options : BuildOptions) :
    Builder.Appends source options n t.events (t.inlines source options) := by
  induction h with
  | text content hrange =>
    exact .single hrange fun _ _ _ hkind => Builder.addText_still hkind hrange content
  | code content hrange => exact .single hrange fun _ _ _ _ => rfl
  | markup tag hrange => exact .single hrange fun _ _ _ _ => rfl
  | lineBreak hard hrange =>
    refine .single hrange fun _ _ _ _ => ?_
    rw [← Builder.addBreak_still hrange]
    cases hard <;> rfl
  | container tag left hrange _ ih => exact (appends_list ih).container hrange tag left

end InlineTree

end MarkdownSpans
