import MarkdownSpans.Proofs.Output.Growth
import MarkdownSpans.Proofs.Output.SpanTable
import MarkdownSpans.Render.Pass

/-!
# The spans of a run and the output around them

`Pass.extents` lists the spans that the rendering of a node opens, each with the output at the
moment it was opened and at the moment it was closed. `Passage c es d` says what becomes of a
context `c` in a run that opens the spans `es` and ends in `d`; `Pass.passage_render` proves it of
every node, whatever the rules are and whether or not the rendering fails.
-/

namespace MarkdownSpans

/-- A span with the output when it was opened, the leads of the line written, and when it was
closed. -/
structure SpanExtent where
  style : SpanStyle
  opened : Buffer
  closed : Buffer

/-- What the tracker holds of such a span. -/
def SpanExtent.tracked (e : SpanExtent) : TrackedSpan :=
  ⟨e.style, e.opened.length, some e.closed.length⟩

/-- The spans that a program opens, in the order in which it opens them; `nodeExtents` gives those
of the nodes in it. -/
def Program.extents (pass : Pass) (renderNode : Node → Context → Outcome)
    (nodeExtents : Node → Context → List SpanExtent) : Program → Context → List SpanExtent
  | seq first second, c =>
    let o := first.run pass renderNode c
    first.extents pass renderNode nodeExtents c ++
      match o.error with
      | none => second.extents pass renderNode nodeExtents o.context
      | some _ => []
  | span style body, c =>
    let entered := c.openSpan style
    ⟨style, entered.buffer, (body.run pass renderNode entered).context.buffer⟩ ::
      body.extents pass renderNode nodeExtents entered
  | indent i body, c =>
    body.extents pass renderNode nodeExtents (c.mapBuffer (·.pushIndent i))
  | withCompact value body, c =>
    body.extents pass renderNode nodeExtents { c with compact := value }
  | withLast value body, c => body.extents pass renderNode nodeExtents { c with last := value }
  | render node, c => nodeExtents node c
  | intercept tag next, c =>
    let answer := pass.handles c tag
    (next answer).extents pass renderNode nodeExtents (c.offer tag answer)
  | observe next, c => (next (c.view pass.options)).extents pass renderNode nodeExtents c
  | consult next, c => (next c.notes).extents pass renderNode nodeExtents c
  | attempt body next, c =>
    let o := body.run pass renderNode c
    body.extents pass renderNode nodeExtents c ++
      (next o.error).extents pass renderNode nodeExtents o.context
  | _, _ => []

/-- The spans that the rendering of a node opens. -/
def Pass.extents (pass : Pass) (levels : Nat) (node : Node) (c : Context) : List SpanExtent :=
  match pass.rules.find? node with
  | none => []
  | some rule =>
    if pass.options.maxDepth ≤ c.depth then
      []
    else
      match levels with
      | 0 => []
      | levels + 1 =>
        (rule node).extents pass (pass.render levels) (pass.extents levels) c.enterNode

namespace Pass

variable {pass : Pass} {levels : Nat} {node : Node} {c : Context} {rule : Rule}

theorem extents_of_none (h : pass.rules.find? node = none) : pass.extents levels node c = [] := by
  rw [extents, h]

theorem extents_zero (h : pass.rules.find? node = some rule) : pass.extents 0 node c = [] := by
  rw [extents, h]
  exact ite_self _

theorem extents_of_le (h : pass.rules.find? node = some rule)
    (deep : pass.options.maxDepth ≤ c.depth) : pass.extents levels node c = [] := by
  rw [extents, h]
  exact if_pos deep

theorem extents_succ (h : pass.rules.find? node = some rule)
    (shallow : c.depth < pass.options.maxDepth) :
    pass.extents (levels + 1) node c =
      (rule node).extents pass (pass.render levels) (pass.extents levels) c.enterNode := by
  rw [extents, h]
  exact if_neg (Nat.not_le_of_lt shallow)

/-- Nodes are nested as deep as they may be, so that no node is rendered. -/
def Stuck (pass : Pass) (levels : Nat) (c : Context) : Prop :=
  pass.options.maxDepth ≤ c.depth ∨ levels = 0

/-- Where a pass is not stuck, a node may be rendered with one level less. -/
theorem stuck_or_shallow (pass : Pass) (levels : Nat) (c : Context) :
    pass.Stuck levels c ∨ ∃ k, levels = k + 1 ∧ c.depth < pass.options.maxDepth := by
  by_cases stuck : pass.Stuck levels c
  · exact .inl stuck
  · obtain ⟨shallow, hlevels⟩ := not_or.1 stuck
    obtain ⟨k, hk⟩ := Nat.exists_eq_succ_of_ne_zero hlevels
    exact .inr ⟨k, hk, Nat.lt_of_not_le shallow⟩

theorem render_of_stuck (h : pass.rules.find? node = some rule) (stuck : pass.Stuck levels c) :
    pass.render levels node c = c.failed (.depthLimit pass.options.maxDepth) := by
  rcases stuck with deep | rfl
  · exact render_of_le h deep
  · exact render_zero h

theorem extents_of_stuck (h : pass.rules.find? node = some rule) (stuck : pass.Stuck levels c) :
    pass.extents levels node c = [] := by
  rcases stuck with deep | rfl
  · exact extents_of_le h deep
  · exact extents_zero h

end Pass

/-! ### Brackets -/

/-- The output grows from one buffer to another, and meanwhile the spans of a list are opened in its
order, each of them closed before the one it was opened in. -/
inductive Bracketed : Buffer → List SpanExtent → Buffer → Prop where
  /-- The text grows without a span. -/
  | grow {a b : Buffer} (h : a.Grows b) : Bracketed a [] b
  | append {a b c : Buffer} {es fs : List SpanExtent} (first : Bracketed a es b)
      (second : Bracketed b fs c) : Bracketed a (es ++ fs) c
  /-- A span is opened, and closed after the spans inside it. -/
  | span {a : Buffer} {e : SpanExtent} {es : List SpanExtent} (before : a.Grows e.opened)
      (inside : Bracketed e.opened es e.closed) : Bracketed a (e :: es) e.closed

namespace Bracketed

variable {a b : Buffer} {es : List SpanExtent}

theorem grows (h : Bracketed a es b) : a.Grows b := by
  induction h with
  | grow h => exact h
  | append _ _ ih₁ ih₂ => exact ih₁.trans ih₂
  | span before _ ih => exact before.trans ih

/-- More text may be written before and after. -/
theorem widen {a' b' : Buffer} (ha : a'.Grows a) (h : Bracketed a es b) (hb : b.Grows b') :
    Bracketed a' es b' := by
  simpa using (Bracketed.grow ha).append (h.append (.grow hb))

/-- Each span is opened and closed in between, in this order. -/
theorem grows_of_mem (h : Bracketed a es b) {e : SpanExtent} (he : e ∈ es) :
    a.Grows e.opened ∧ e.opened.Grows e.closed ∧ e.closed.Grows b := by
  induction h with
  | grow => cases he
  | append first second ih₁ ih₂ =>
    rcases List.mem_append.1 he with he | he
    · obtain ⟨h₁, h₂, h₃⟩ := ih₁ he
      exact ⟨h₁, h₂, h₃.trans second.grows⟩
    · obtain ⟨h₁, h₂, h₃⟩ := ih₂ he
      exact ⟨first.grows.trans h₁, h₂, h₃⟩
  | span before inside ih =>
    rcases List.mem_cons.1 he with rfl | he
    · exact ⟨before, inside.grows, .refl _⟩
    · obtain ⟨h₁, h₂, h₃⟩ := ih he
      exact ⟨before.trans h₁, h₂, h₃⟩

/-- Of two spans the later one is closed before the earlier one, or opened after it was closed. -/
theorem pairwise (h : Bracketed a es b) :
    es.Pairwise fun e f =>
      e.opened.Grows f.opened ∧ (f.closed.Grows e.closed ∨ e.closed.Grows f.opened) := by
  induction h with
  | grow => exact .nil
  | append first second ih₁ ih₂ =>
    refine List.pairwise_append.2 ⟨ih₁, ih₂, fun e he f hf => ?_⟩
    obtain ⟨-, open_close, close_mid⟩ := first.grows_of_mem he
    obtain ⟨mid_open, -, -⟩ := second.grows_of_mem hf
    have disjoint : e.closed.Grows f.opened := close_mid.trans mid_open
    exact ⟨open_close.trans disjoint, .inr disjoint⟩
  | span before inside ih =>
    refine List.pairwise_cons.2 ⟨fun f hf => ?_, ih⟩
    obtain ⟨hopen, -, hclose⟩ := inside.grows_of_mem hf
    exact ⟨hopen, .inl hclose⟩

end Bracketed

/-! ### What a run leaves of a context -/

/-- From `c` to `d` the text grew, the open containers gave leads to some lines, the spans `es` were
opened and closed, and the depth is what it was. -/
structure Passage (c : Context) (es : List SpanExtent) (d : Context) : Prop where
  continues : c.buffer.Continues d.buffer
  bracketed : Bracketed c.buffer es d.buffer
  spans : d.spans.spans = c.spans.spans ++ es.map SpanExtent.tracked
  depth : d.depth = c.depth

namespace Passage

variable {c d : Context} {es : List SpanExtent}

/-- A step that opens no span. -/
theorem of_continues (h : c.buffer.Continues d.buffer) (spans : d.spans = c.spans)
    (depth : d.depth = c.depth) : Passage c [] d :=
  ⟨h, .grow h.toGrows, by simp [spans], depth⟩

theorem refl (c : Context) : Passage c [] c := of_continues (.refl _) rfl rfl

/-- Flags, offers and notes play no part. -/
theorem congr {c' d' : Context} (h : Passage c es d)
    (hc : c'.buffer = c.buffer ∧ c'.spans = c.spans ∧ c'.depth = c.depth)
    (hd : d'.buffer = d.buffer ∧ d'.spans = d.spans ∧ d'.depth = d.depth) : Passage c' es d' where
  continues := by rw [hc.1, hd.1]; exact h.continues
  bracketed := by rw [hc.1, hd.1]; exact h.bracketed
  spans := by rw [hc.2.1, hd.2.1]; exact h.spans
  depth := by rw [hc.2.2, hd.2.2]; exact h.depth

theorem append {e : Context} {fs : List SpanExtent} (first : Passage c es d)
    (second : Passage d fs e) : Passage c (es ++ fs) e where
  continues := first.continues.trans second.continues
  bracketed := first.bracketed.append second.bracketed
  spans := by rw [second.spans, first.spans, List.map_append, List.append_assoc]
  depth := second.depth.trans first.depth

/-- A step into a span and out of it again. -/
theorem span {style : SpanStyle} (h : Passage (c.openSpan style) es d) :
    Passage c (⟨style, (c.openSpan style).buffer, d.buffer⟩ :: es) (d.closeSpan c.spans.size) where
  continues := c.buffer.continues_flushIndent.trans h.continues
  bracketed := .span c.buffer.continues_flushIndent.toGrows h.bracketed
  spans := by
    have inside : d.spans = ⟨c.spans.spans ++ ⟨style, c.buffer.flushIndent.length, none⟩ ::
        es.map SpanExtent.tracked⟩ := by
      have := h.spans
      simp only [Context.openSpan, SpanTracker.openAt, List.append_assoc,
        List.singleton_append] at this
      rw [← this]
    rw [Context.closeSpan, inside, SpanTracker.size, SpanTracker.closeAt_length]
    rfl
  depth := h.depth

/-- A step into a container and out of it again. -/
theorem indent {i : Indent} (h : Passage (c.mapBuffer (·.pushIndent i)) es d) :
    Passage c es (d.mapBuffer (·.popIndent)) where
  continues := .of_pushIndent h.continues
  bracketed := h.bracketed.widen (c.buffer.grows_pushIndent i) d.buffer.grows_popIndent
  spans := h.spans
  depth := h.depth

/-- A step into a node and out of it again. -/
theorem node (h : Passage c.enterNode es d) : Passage c es d.leaveNode where
  continues := h.continues
  bracketed := h.bracketed
  spans := h.spans
  depth := by rw [Context.leaveNode, h.depth, Context.enterNode, Nat.add_sub_cancel]

end Passage

/-- A program passes a context on if the nodes in it do. -/
theorem Program.passage_run {pass : Pass} {renderNode : Node → Context → Outcome}
    {nodeExtents : Node → Context → List SpanExtent}
    (hnode : ∀ node c, Passage c (nodeExtents node c) (renderNode node c).context)
    (p : Program) (c : Context) :
    Passage c (p.extents pass renderNode nodeExtents c) (p.run pass renderNode c).context := by
  induction p generalizing c with
  | done | fail => exact .refl c
  | setCompact | setLast | note => exact (Passage.refl c).congr ⟨rfl, rfl, rfl⟩ ⟨rfl, rfl, rfl⟩
  | seq first second ih₁ ih₂ =>
    simp only [extents, run, Outcome.andThen]
    cases (first.run pass renderNode c).error with
    | none => exact (ih₁ c).append (ih₂ _)
    | some error => simpa using ih₁ c
  | write text => exact .of_continues (c.buffer.continues_write text) rfl rfl
  | writeChar ch => exact .of_continues (c.buffer.continues_writeChar ch) rfl rfl
  | writeLine newline => exact .of_continues (c.buffer.continues_writeLine newline) rfl rfl
  | writeDefaultLine => exact .of_continues c.buffer.continues_writeDefaultLine rfl rfl
  | ensureLine => exact .of_continues c.buffer.continues_ensureLine rfl rfl
  | span style body ih => exact (ih (c.openSpan style)).span
  | indent i body ih => exact (ih (c.mapBuffer (·.pushIndent i))).indent
  | withCompact value body ih =>
    exact (ih { c with compact := value }).congr ⟨rfl, rfl, rfl⟩ ⟨rfl, rfl, rfl⟩
  | withLast value body ih =>
    exact (ih { c with last := value }).congr ⟨rfl, rfl, rfl⟩ ⟨rfl, rfl, rfl⟩
  | render node => exact hnode node c
  | intercept tag next ih =>
    exact (ih (pass.handles c tag) (c.offer tag (pass.handles c tag))).congr ⟨rfl, rfl, rfl⟩
      ⟨rfl, rfl, rfl⟩
  | observe next ih => exact ih (c.view pass.options) c
  | consult next ih => exact ih c.notes c
  | attempt body next ih₁ ih₂ => exact (ih₁ c).append (ih₂ _ _)

namespace Pass

theorem context_unknown (pass : Pass) (node : Node) (c : Context) :
    (pass.unknown node c).context = c := by
  unfold unknown
  split <;> rfl

/-- **The rendering of a node passes the context on**, with the spans of `Pass.extents`, whatever
the rules do and whether or not it fails. -/
theorem passage_render (pass : Pass) (levels : Nat) (node : Node) (c : Context) :
    Passage c (pass.extents levels node c) (pass.render levels node c).context := by
  induction levels using Nat.strongRecOn generalizing node c with
  | ind levels ih =>
    cases hrule : pass.rules.find? node with
    | none =>
      rw [render_of_none hrule, extents_of_none hrule, context_unknown]
      exact .refl c
    | some rule =>
      rcases pass.stuck_or_shallow levels c with stuck | ⟨k, rfl, shallow⟩
      · rw [render_of_stuck hrule stuck, extents_of_stuck hrule stuck]
        exact .refl c
      · rw [render_succ hrule shallow, extents_succ hrule shallow]
        exact ((rule node).passage_run (ih k (Nat.lt_succ_self k)) c.enterNode).node

end Pass

end MarkdownSpans
