import Mathlib.Data.List.Induction
import MarkdownSpans.Render.Error

/-!
# Runs of a span tracker

A run opens spans and closes them again, in any order. A handle may be used once more after its span
was closed, and a span may be closed before the place where it starts. `SpanTable` keeps the spans
of a run, which of them are closed and how many are open, side by side; whatever is done with
handles that were given out, the three agree with the tracker (`SpanTable.run?_of_issued`), and what
they say is read off the steps alone (`SpanTable.records_run`).
-/

namespace MarkdownSpans

/-! ### What is asked of a tracker -/

/-- One use of a tracker. -/
inductive SpanStep where
  | opens (style : SpanStyle) (offset : Nat)
  | closes (handle stop : Nat)
  deriving DecidableEq, Repr

namespace SpanStep

/-- The style and the offset of the span that a step opens. -/
def opening? : SpanStep → Option (SpanStyle × Nat)
  | opens style offset => some (style, offset)
  | closes .. => none

/-- Where a step closes the span of a handle. -/
def stopOf? (handle : Nat) : SpanStep → Option Nat
  | opens .. => none
  | closes h stop => if h = handle then some stop else none

/-- The styles and the offsets of the spans that some steps open. -/
def opened (steps : List SpanStep) : List (SpanStyle × Nat) := steps.filterMap opening?

/-- Where a handle is closed for the first time. -/
def firstStop? (handle : Nat) (steps : List SpanStep) : Option Nat :=
  steps.findSome? (stopOf? handle)

/-- The handle is closed at least once. -/
def Closed (handle : Nat) (steps : List SpanStep) : Prop := ∃ stop, closes handle stop ∈ steps

/-- The handles given out by some steps and not closed by them. -/
def leftOpen (steps : List SpanStep) : List Nat :=
  (List.range (opened steps).length).filter fun handle => (firstStop? handle steps).isNone

/-- Every close uses a handle that an earlier open gave out, where `given` were given out before. -/
def IssuedAfter (given : Nat) : List SpanStep → Prop
  | [] => True
  | opens .. :: rest => IssuedAfter (given + 1) rest
  | closes handle _ :: rest => handle < given ∧ IssuedAfter given rest

/-- Every close uses a handle that an earlier open gave out. -/
def Issued (steps : List SpanStep) : Prop := IssuedAfter 0 steps

instance decidableIssuedAfter (given : Nat) (steps : List SpanStep) :
    Decidable (IssuedAfter given steps) :=
  match steps with
  | [] => .isTrue trivial
  | opens .. :: rest => decidableIssuedAfter (given + 1) rest
  | closes handle _ :: rest =>
    have := decidableIssuedAfter given rest
    inferInstanceAs (Decidable (handle < given ∧ IssuedAfter given rest))

instance (steps : List SpanStep) : Decidable (Issued steps) :=
  inferInstanceAs (Decidable (IssuedAfter 0 steps))

variable {steps more : List SpanStep} {handle given : Nat}

theorem opened_append (steps more : List SpanStep) :
    opened (steps ++ more) = opened steps ++ opened more := List.filterMap_append

theorem firstStop?_concat (handle : Nat) (steps : List SpanStep) (s : SpanStep) :
    firstStop? handle (steps ++ [s]) = (firstStop? handle steps).or (s.stopOf? handle) := by
  simp [firstStop?, List.findSome?_append]

theorem firstStop?_eq_none_iff : firstStop? handle steps = none ↔ ¬Closed handle steps := by
  unfold firstStop? Closed
  rw [List.findSome?_eq_none_iff]
  constructor
  · rintro h ⟨stop, hmem⟩
    simpa [stopOf?] using h _ hmem
  · intro h step hstep
    cases step with
    | opens style offset => rfl
    | closes other stop =>
      by_cases same : other = handle
      · subst same
        exact absurd ⟨stop, hstep⟩ h
      · simp [stopOf?, same]

theorem exists_firstStop?_iff : (∃ stop, firstStop? handle steps = some stop) ↔
    Closed handle steps := by
  rw [← Option.isSome_iff_exists, Option.isSome_iff_ne_none, Ne, firstStop?_eq_none_iff, not_not]

theorem issuedAfter_append : IssuedAfter given (steps ++ more) ↔
    IssuedAfter given steps ∧ IssuedAfter (given + (opened steps).length) more := by
  induction steps generalizing given with
  | nil => simp [IssuedAfter, opened]
  | cons step rest ih =>
    cases step with
    | opens style offset =>
      have count : given + (opened (opens style offset :: rest)).length =
          given + 1 + (opened rest).length := by
        simp only [opened, List.filterMap_cons, opening?, List.length_cons]
        omega
      rw [count]
      exact ih
    | closes other stop =>
      simp only [List.cons_append, IssuedAfter, ih, and_assoc]
      rfl

/-- What is issued so far does not depend on what follows. -/
theorem Issued.left (h : Issued (steps ++ more)) : Issued steps := (issuedAfter_append.1 h).1

/-- A handle that comes next was not used yet. -/
theorem IssuedAfter.lt_of_closed (h : IssuedAfter given steps) (closed : Closed handle steps) :
    handle < given + (opened steps).length := by
  obtain ⟨stop, hmem⟩ := closed
  obtain ⟨before, after, rfl⟩ := List.append_of_mem hmem
  obtain ⟨bound, -⟩ := (issuedAfter_append.1 h).2
  rw [opened_append, List.length_append]
  omega

end SpanStep

/-! ### What a tracker records -/

namespace SpanTracker

open SpanStep

/-- Use a tracker once. -/
def step (t : SpanTracker) : SpanStep → SpanTracker
  | opens style offset => t.openAt style offset
  | closes handle stop => t.closeAt handle stop

/-- What a tracker holds after some steps. -/
def run (steps : List SpanStep) : SpanTracker := steps.foldl step {}

theorem run_concat (steps : List SpanStep) (s : SpanStep) :
    run (steps ++ [s]) = (run steps).step s := by
  simp [run]

/-- Closing the span that was opened after `l` closes this span alone. -/
theorem closeAt_length (l r : List TrackedSpan) (t : TrackedSpan) (stop : Nat) :
    (closeAt ⟨l ++ t :: r⟩ l.length stop).spans = l ++ t.close stop :: r := by
  induction l with
  | nil => rfl
  | cons _ l ih => simpa [closeAt] using ih

/-- The span of a handle and those opened before and after it. -/
theorem exists_cut {t : SpanTracker} {handle : Nat} (h : handle < t.size) :
    ∃ l x r, t = ⟨l ++ x :: r⟩ ∧ l.length = handle := by
  have within : handle < t.spans.length := h
  refine ⟨t.spans.take handle, t.spans[handle], t.spans.drop (handle + 1), ?_, ?_⟩
  · rw [List.getElem_cons_drop, List.take_append_drop]
  · exact List.length_take_of_le (Nat.le_of_lt within)

/-- What the steps say of the span of a handle. -/
def recorded (steps : List SpanStep) (handle : Nat) (opening : SpanStyle × Nat) : TrackedSpan :=
  ⟨opening.1, opening.2, firstStop? handle steps⟩

/-- A tracker holds the spans in the order in which they were opened, each with the first place at
which it was closed. -/
theorem spans_run {steps : List SpanStep} (h : Issued steps) :
    (run steps).spans = (opened steps).mapIdx (recorded steps) := by
  induction steps using List.reverseRecOn with
  | nil => rfl
  | append_singleton steps s ih =>
    rw [run_concat]
    cases s with
    | opens style offset =>
      -- The handle that is given out was not closed before.
      have fresh : firstStop? (opened steps).length steps = none := by
        rw [firstStop?_eq_none_iff]
        intro closed
        have := h.left.lt_of_closed closed
        omega
      have same : recorded (steps ++ [opens style offset]) = recorded steps := by
        funext handle opening
        simp [recorded, firstStop?_concat, stopOf?]
      have last : opened (steps ++ [opens style offset]) = opened steps ++ [(style, offset)] := by
        rw [opened_append]
        rfl
      rw [last, List.mapIdx_concat, same, ← ih h.left, recorded, fresh]
      rfl
    | closes handle stop =>
      have same : opened (steps ++ [closes handle stop]) = opened steps := by
        rw [opened_append]
        exact List.append_nil _
      show List.modify (run steps).spans handle (·.close stop) = _
      rw [same, ih h.left]
      apply List.ext_getElem?
      intro i
      simp only [List.getElem?_modify, List.getElem?_mapIdx, Option.map_eq_map, Option.map_map]
      refine congrArg (fun f => Option.map f (opened steps)[i]?) ?_
      funext opening
      by_cases here : handle = i
      · subst here
        cases hfirst : firstStop? handle steps <;>
          simp [recorded, firstStop?_concat, hfirst, TrackedSpan.close, stopOf?]
      · simp [recorded, firstStop?_concat, here, stopOf?]

theorem size_run {steps : List SpanStep} (h : Issued steps) :
    (run steps).size = (opened steps).length := by
  rw [size, spans_run h, List.length_mapIdx]

/-- As many spans are open as handles were given out and not closed. -/
theorem openCount_run {steps : List SpanStep} (h : Issued steps) :
    (run steps).openCount = (leftOpen steps).length := by
  have count (openings : List (SpanStyle × Nat)) :
      (openings.mapIdx (recorded steps)).countP (!·.isClosed) =
        ((List.range openings.length).filter fun i => (firstStop? i steps).isNone).length := by
    induction openings using List.reverseRecOn with
    | nil => rfl
    | append_singleton openings opening ih =>
      rw [List.mapIdx_concat, List.countP_append, ih, List.length_append, List.length_singleton,
        List.range_succ, List.filter_append, List.length_append]
      cases hfirst : firstStop? openings.length steps <;>
        simp [recorded, TrackedSpan.isClosed, hfirst]
  rw [openCount, spans_run h, count]
  rfl

/-! ### What a tracker finishes with -/

/-- A tracker finishes if no span was left open. -/
theorem exists_finish_iff {t : SpanTracker} :
    (∃ spans, t.finish = .ok spans) ↔ ∀ x ∈ t.spans, x.isClosed = true := by
  have none_open : t.firstOpen? = none ↔ ∀ x ∈ t.spans, x.isClosed = true := by
    simp [firstOpen?]
  rw [← none_open, finish]
  cases t.firstOpen? <;> simp

theorem eq_toSpans_of_finish {t : SpanTracker} {spans : List Span} (h : t.finish = .ok spans) :
    spans = t.toSpans := by
  unfold finish at h
  split at h
  · cases h
  · exact (Except.ok.inj h).symm

/-- A tracker fails with the first span that was left open. -/
theorem exists_of_finish_error {t : SpanTracker} {error : RenderError}
    (h : t.finish = .error error) : ∃ l x r, t.spans = l ++ x :: r ∧ x.isClosed = false ∧
      (∀ y ∈ l, y.isClosed = true) ∧ error = .unclosedSpan x.style.kind x.offset := by
  unfold finish firstOpen? at h
  split at h
  next x hopen =>
    obtain ⟨still, l, r, hcut, before⟩ := List.find?_eq_some_iff_append.1 hopen
    exact ⟨l, x, r, hcut, by simpa using still, by simpa using before, (Except.error.inj h).symm⟩
  next => cases h

/-! ### What a run finishes with -/

variable {steps : List SpanStep}

theorem getElem?_run (h : Issued steps) (i : Nat) :
    (run steps).spans[i]? = (opened steps)[i]?.map (recorded steps i) := by
  rw [spans_run h, List.getElem?_mapIdx]

theorem isClosed_recorded_iff {i : Nat} {opening : SpanStyle × Nat} :
    (recorded steps i opening).isClosed = true ↔ Closed i steps := by
  rw [TrackedSpan.isClosed, Option.isSome_iff_exists]
  exact exists_firstStop?_iff

theorem exists_finish_run_iff (h : Issued steps) : (∃ spans, (run steps).finish = .ok spans) ↔
    ∀ i < (opened steps).length, Closed i steps := by
  rw [exists_finish_iff]
  constructor
  · intro closed i hi
    have here : (run steps).spans[i]? = some (recorded steps i (opened steps)[i]) := by
      rw [getElem?_run h, List.getElem?_eq_getElem hi, Option.map_some]
    exact isClosed_recorded_iff.1 (closed _ (List.mem_of_getElem? here))
  · intro closed x hx
    obtain ⟨i, hi⟩ := List.getElem?_of_mem hx
    rw [getElem?_run h, Option.map_eq_some_iff] at hi
    obtain ⟨opening, hopening, rfl⟩ := hi
    exact isClosed_recorded_iff.2 (closed i (List.getElem?_eq_some_iff.1 hopening).1)

/-- The spans of a run that finishes, in the order in which they were opened. -/
theorem getElem?_finish_run (h : Issued steps) {spans : List Span}
    (hfinish : (run steps).finish = .ok spans) {i : Nat} {style : SpanStyle} {offset : Nat}
    (hopened : (opened steps)[i]? = some (style, offset)) :
    ∃ stop, firstStop? i steps = some stop ∧ spans[i]? = some ⟨offset, stop - offset, style⟩ := by
  have bound : i < (opened steps).length := (List.getElem?_eq_some_iff.1 hopened).1
  have closed : Closed i steps := (exists_finish_run_iff h).1 ⟨spans, hfinish⟩ i bound
  obtain ⟨stop, hstop⟩ := exists_firstStop?_iff.2 closed
  refine ⟨stop, hstop, ?_⟩
  rw [eq_toSpans_of_finish hfinish, toSpans, List.getElem?_map, getElem?_run h, hopened,
    Option.map_some, Option.map_some, recorded, TrackedSpan.span, hstop, Option.getD_some]

/-- A run that does not finish fails with the span of the first handle that was never closed. -/
theorem exists_of_finish_run_error (h : Issued steps) {error : RenderError}
    (hfinish : (run steps).finish = .error error) :
    ∃ i style offset, (opened steps)[i]? = some (style, offset) ∧ ¬Closed i steps ∧
      (∀ j < i, Closed j steps) ∧ error = .unclosedSpan style.kind offset := by
  obtain ⟨l, x, r, hcut, still, before, rfl⟩ := exists_of_finish_error hfinish
  have here : (run steps).spans[l.length]? = some x := by simp [hcut]
  rw [getElem?_run h, Option.map_eq_some_iff] at here
  obtain ⟨⟨style, offset⟩, hopened, rfl⟩ := here
  refine ⟨l.length, style, offset, hopened, ?_, ?_, rfl⟩
  · intro closed
    rw [isClosed_recorded_iff.2 closed] at still
    cases still
  · intro j hj
    have earlier : (run steps).spans[j]? = some l[j] := by
      rw [hcut, List.getElem?_append_left hj, List.getElem?_eq_getElem hj]
    have closed := before l[j] (List.getElem_mem hj)
    rw [getElem?_run h, Option.map_eq_some_iff] at earlier
    obtain ⟨opening, -, hopening⟩ := earlier
    rw [← hopening] at closed
    exact isClosed_recorded_iff.1 closed

end SpanTracker

/-! ### Three tables -/

/-- The spans of a run, which of them are closed, and how many are open. -/
structure SpanTable where
  /-- The spans in the order in which they were opened; one that is open has no length yet. -/
  spans : List Span := []
  closed : List Bool := []
  openCount : Nat := 0
  deriving DecidableEq, Repr

namespace SpanTable

/-- Open a span at an offset; its handle is its place among the spans. -/
def openAt (style : SpanStyle) (offset : Nat) (t : SpanTable) : Nat × SpanTable :=
  let spans := t.spans ++ [⟨offset, 0, style⟩]
  (spans.length - 1, ⟨spans, t.closed ++ [false], t.openCount + 1⟩)

/-- Close the span of a handle at an offset, unless it is closed. None if a table has no such place
or no span is counted that could be closed. -/
def closeAt? (handle stop : Nat) (t : SpanTable) : Option SpanTable := do
  let closed ← t.closed[handle]?
  if closed then
    some t
  else
    let span ← t.spans[handle]?
    guard (0 < t.openCount)
    some {
      spans := t.spans.set handle { span with length := stop - span.offset }
      closed := t.closed.set handle true
      openCount := t.openCount - 1 }

/-- The spans, or the first one that was left open. None if a table has no such place. -/
def finish? (t : SpanTable) : Option (Except RenderError (List Span)) :=
  match t.closed.findIdx? (!·) with
  | some index => t.spans[index]?.map fun span =>
    .error (.unclosedSpan span.style.kind span.offset)
  | none => some (.ok t.spans)

/-- Use the tables once. -/
def step? (t : SpanTable) : SpanStep → Option SpanTable
  | .opens style offset => some (t.openAt style offset).2
  | .closes handle stop => t.closeAt? handle stop

/-- What the tables hold after some steps. -/
def run? (steps : List SpanStep) : Option SpanTable := steps.foldlM step? {}

theorem run?_concat (steps : List SpanStep) (s : SpanStep) :
    run? (steps ++ [s]) = (run? steps).bind (·.step? s) := by
  simp [run?, List.foldlM_append]

end SpanTable

/-- The tables of a tracker. -/
def SpanTracker.table (t : SpanTracker) : SpanTable :=
  ⟨t.toSpans, t.spans.map (·.isClosed), t.openCount⟩

namespace SpanTable

open SpanStep

theorem openAt_table (t : SpanTracker) (style : SpanStyle) (offset : Nat) :
    t.table.openAt style offset = (t.size, (t.openAt style offset).table) := by
  simp [openAt, SpanTracker.table, SpanTracker.openAt, SpanTracker.toSpans, SpanTracker.size,
    SpanTracker.openCount, TrackedSpan.span, TrackedSpan.isClosed]

/-- A place that exists is closed in all three tables, and the count of open spans allows it. -/
theorem closeAt?_table {t : SpanTracker} {handle : Nat} (h : handle < t.size) (stop : Nat) :
    t.table.closeAt? handle stop = some (t.closeAt handle stop).table := by
  obtain ⟨l, x, r, rfl, rfl⟩ := SpanTracker.exists_cut h
  have after : SpanTracker.closeAt ⟨l ++ x :: r⟩ l.length stop = ⟨l ++ x.close stop :: r⟩ :=
    congrArg SpanTracker.mk (SpanTracker.closeAt_length l r x stop)
  have place : (SpanTracker.table ⟨l ++ x :: r⟩).closed[l.length]? = some x.isClosed := by
    simp [SpanTracker.table]
  have span : (SpanTracker.table ⟨l ++ x :: r⟩).spans[l.length]? = some x.span := by
    simp [SpanTracker.table, SpanTracker.toSpans]
  rw [after, closeAt?, place, Option.bind_eq_bind, Option.bind_some]
  cases hstop : x.stop? with
  | some first =>
    have closed : x.isClosed = true := by rw [TrackedSpan.isClosed, hstop]; rfl
    have unchanged : x.close stop = x := by
      rw [TrackedSpan.close, hstop, Option.getD_some, ← hstop]
    rw [if_pos closed, unchanged]
  | none =>
    have still : x.isClosed = false := by rw [TrackedSpan.isClosed, hstop]; rfl
    -- The span itself is counted among the open ones.
    have counted : 0 < (SpanTracker.table ⟨l ++ x :: r⟩).openCount :=
      List.countP_pos_iff.2 ⟨x, by simp, by rw [still]; rfl⟩
    have spans : (SpanTracker.table ⟨l ++ x :: r⟩).spans.set l.length
        { x.span with length := stop - x.span.offset } =
          (SpanTracker.table ⟨l ++ x.close stop :: r⟩).spans := by
      simp [SpanTracker.table, SpanTracker.toSpans, TrackedSpan.span, TrackedSpan.close, hstop]
    have closed : (SpanTracker.table ⟨l ++ x :: r⟩).closed.set l.length true =
        (SpanTracker.table ⟨l ++ x.close stop :: r⟩).closed := by
      simp [SpanTracker.table, TrackedSpan.isClosed, TrackedSpan.close]
    have openCount : (SpanTracker.table ⟨l ++ x :: r⟩).openCount - 1 =
        (SpanTracker.table ⟨l ++ x.close stop :: r⟩).openCount := by
      simp [SpanTracker.table, SpanTracker.openCount, TrackedSpan.isClosed, TrackedSpan.close,
        hstop]
    rw [still, if_neg Bool.false_ne_true, span, Option.bind_eq_bind, Option.bind_some,
      guard, if_pos counted, spans, closed, openCount]
    rfl

theorem finish?_table (t : SpanTracker) : t.table.finish? = some t.finish := by
  unfold finish? SpanTracker.finish SpanTracker.firstOpen?
  cases hopen : t.spans.find? (!·.isClosed) with
  | none =>
    have closed : t.table.closed.findIdx? (!·) = none := by
      simpa [SpanTracker.table] using hopen
    rw [closed]
    rfl
  | some x =>
    obtain ⟨still, l, r, hcut, before⟩ := List.find?_eq_some_iff_append.1 hopen
    have index : t.table.closed.findIdx? (!·) = some l.length := by
      have none_before : (l.map (·.isClosed)).findIdx? (!·) = none := by simpa using before
      have here : (!x.isClosed) = true := still
      rw [SpanTracker.table, hcut, List.map_append, List.map_cons, List.findIdx?_append,
        none_before, Option.none_or, List.findIdx?_cons, if_pos here, Option.map_some,
        List.length_map, Nat.zero_add]
    have span : t.table.spans[l.length]? = some x.span := by
      simp [SpanTracker.table, SpanTracker.toSpans, hcut]
    rw [index]
    show Option.map _ t.table.spans[l.length]? = _
    rw [span]
    rfl

/-- The tables agree with the tracker after every run: there is a place for every handle, and the
count of open spans is positive whenever one is closed. -/
theorem run?_of_issued {steps : List SpanStep} (h : Issued steps) :
    run? steps = some (SpanTracker.run steps).table := by
  induction steps using List.reverseRecOn with
  | nil => rfl
  | append_singleton steps s ih =>
    rw [run?_concat, ih h.left, Option.bind_some, SpanTracker.run_concat]
    cases s with
    | opens style offset => 
      exact congrArg (fun opened : Nat × SpanTable => some opened.2) (openAt_table _ style offset)
    | closes handle stop =>
      have given : handle < (SpanTracker.run steps).size := by
        obtain ⟨-, bound, -⟩ := issuedAfter_append.1 h
        rw [SpanTracker.size_run h.left]
        omega
      exact closeAt?_table given stop

/-- **The tables of a run say what its steps did.** Where every close uses a handle that was given
out, no place is missing and the count of open spans never falls below zero: after each step it is
the number of handles that were given out and not closed, and as many spans are kept as were
opened. At the end there are spans if and only if every handle was closed, then each with the style
and the offset it was opened with, reaching to the first place at which it was closed (and empty if
that lies before its start); otherwise the first span that was never closed is the error. The
tracker gives the same. -/
theorem records_run {steps : List SpanStep} (h : Issued steps) :
    (∀ before, before <+: steps → ∃ t, run? before = some t ∧ t = (SpanTracker.run before).table ∧
      t.openCount = (leftOpen before).length ∧ t.spans.length = (opened before).length ∧
      ∀ style offset, (t.openAt style offset).1 = (opened before).length) ∧
    (run? steps).bind finish? = some (SpanTracker.run steps).finish ∧
    ((∃ spans, (run? steps).bind finish? = some (.ok spans)) ↔
      ∀ i < (opened steps).length, Closed i steps) ∧
    (∀ spans, (run? steps).bind finish? = some (.ok spans) →
      spans.length = (opened steps).length ∧
      ∀ i style offset, (opened steps)[i]? = some (style, offset) →
        ∃ stop, firstStop? i steps = some stop ∧ spans[i]? = some ⟨offset, stop - offset, style⟩) ∧
    ∀ error, (run? steps).bind finish? = some (.error error) →
      ∃ i style offset, (opened steps)[i]? = some (style, offset) ∧ ¬Closed i steps ∧
        (∀ j < i, Closed j steps) ∧ error = .unclosedSpan style.kind offset := by
  have finished : (run? steps).bind finish? = some (SpanTracker.run steps).finish := by
    rw [run?_of_issued h, Option.bind_some, finish?_table]
  refine ⟨?_, finished, ?_, ?_, ?_⟩
  · rintro before ⟨after, rfl⟩
    refine ⟨_, run?_of_issued h.left, rfl, SpanTracker.openCount_run h.left, ?_, ?_⟩
    · rw [← SpanTracker.size_run h.left]
      exact List.length_map _
    · intro style offset
      rw [openAt_table, SpanTracker.size_run h.left]
  · simp only [finished, Option.some.injEq]
    exact SpanTracker.exists_finish_run_iff h
  · intro spans hspans
    rw [finished, Option.some.injEq] at hspans
    constructor
    · rw [SpanTracker.eq_toSpans_of_finish hspans, ← SpanTracker.size_run h]
      exact List.length_map _
    · intro i style offset hopened
      exact SpanTracker.getElem?_finish_run h hspans hopened
  · intro error herror
    rw [finished, Option.some.injEq] at herror
    exact SpanTracker.exists_of_finish_run_error h herror

/-- Handles in another order, one of them twice, and a span closed before its start. Before the link
is closed, the run fails with it. -/
theorem records_run_disordered :
    let early : List SpanStep := [.opens { kind := .url, url := some "x" } 0,
      .opens { kind := .bold } 2, .closes 1 4, .opens { kind := .pre } 7, .closes 1 9, .closes 2 5]
    Issued (early ++ [.closes 0 8]) ∧
      (∃ t, run? early = some t ∧ t.openCount = 1 ∧ t.spans.length = 3) ∧
      (run? early).bind finish? = some (.error (.unclosedSpan .url 0)) ∧
      (run? (early ++ [.closes 0 8])).bind finish? = some (.ok [
        ⟨0, 8, { kind := .url, url := some "x" }⟩, ⟨2, 2, { kind := .bold }⟩,
        ⟨7, 0, { kind := .pre }⟩]) := by
  intro early
  have issued : Issued (early ++ [.closes 0 8]) := by decide
  obtain ⟨after_each, finished, -⟩ := records_run issued
  obtain ⟨t, ht, -, openCount, size, -⟩ := after_each early (List.prefix_append _ _)
  exact ⟨issued, ⟨t, ht, openCount, size⟩, (records_run issued.left).2.1, finished⟩

end SpanTable

end MarkdownSpans
