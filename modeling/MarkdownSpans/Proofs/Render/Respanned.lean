import MarkdownSpans.Proofs.Render.Dispatch

/-!
# The spans recorded so far

No program looks at the spans that were recorded before. So a run from a context in which other
spans were recorded does the same and opens the same spans, whatever the rules are
(`Pass.respanned_render`).
-/

namespace MarkdownSpans

/-- The contexts differ in the recorded spans at most. -/
def Context.Respanned (c c' : Context) : Prop := ∃ spans, c' = { c with spans }

/-- The same error, if any, and contexts that differ in the recorded spans at most. -/
structure Outcome.Respanned (o o' : Outcome) : Prop where
  error : o'.error = o.error
  context : o.context.Respanned o'.context

namespace Context.Respanned

variable {c c' d : Context}

theorem refl (c : Context) : c.Respanned c := ⟨c.spans, rfl⟩

theorem symm (h : c.Respanned c') : c'.Respanned c := by
  obtain ⟨spans, rfl⟩ := h
  exact ⟨c.spans, rfl⟩

theorem trans (h : c.Respanned c') (h' : c'.Respanned d) : c.Respanned d := by
  obtain ⟨spans, rfl⟩ := h
  obtain ⟨spans', rfl⟩ := h'
  exact ⟨spans', rfl⟩

theorem buffer (h : c.Respanned c') : c'.buffer = c.buffer := by
  obtain ⟨spans, rfl⟩ := h
  rfl

theorem depth (h : c.Respanned c') : c'.depth = c.depth := by
  obtain ⟨spans, rfl⟩ := h
  rfl

/-- The contexts may be changed in a way that does not depend on the recorded spans. -/
theorem map {f : Context → Context} (h : c.Respanned c')
    (hf : ∀ (d : Context) (spans : SpanTracker), f { d with spans } = { f d with spans }) :
    (f c).Respanned (f c') := by
  obtain ⟨spans, rfl⟩ := h
  exact ⟨spans, hf c spans⟩

theorem openSpan (style : SpanStyle) (h : c.Respanned c') :
    (c.openSpan style).Respanned (c'.openSpan style) := by
  obtain ⟨spans, rfl⟩ := h
  exact ⟨_, rfl⟩

/-- To close a span changes the recorded spans alone. -/
theorem close (handle : Nat) (c : Context) : c.Respanned (c.closeSpan handle) := ⟨_, rfl⟩

/-- The span may be another one. -/
theorem closeSpan (handle handle' : Nat) (h : c.Respanned c') :
    (c.closeSpan handle).Respanned (c'.closeSpan handle') := by
  obtain ⟨spans, rfl⟩ := h
  exact ⟨_, rfl⟩

end Context.Respanned

theorem Outcome.Respanned.mapContext {o o' : Outcome} {f : Context → Context} (h : o.Respanned o')
    (hf : ∀ (d : Context) (spans : SpanTracker), f { d with spans } = { f d with spans }) :
    (o.mapContext f).Respanned (o'.mapContext f) :=
  ⟨h.error, h.context.map hf⟩

/-- What a program does, and which spans it opens, does not depend on the spans recorded before if
this is so for the nodes in it. -/
theorem Program.respanned_run {pass : Pass} {renderNode : Node → Context → Outcome}
    {nodeExtents : Node → Context → List SpanExtent}
    (hnode : ∀ (node : Node) (c c' : Context), c.Respanned c' →
      (renderNode node c).Respanned (renderNode node c') ∧
        nodeExtents node c' = nodeExtents node c)
    (p : Program) {c c' : Context} (h : c.Respanned c') :
    (p.run pass renderNode c).Respanned (p.run pass renderNode c') ∧
      p.extents pass renderNode nodeExtents c' = p.extents pass renderNode nodeExtents c := by
  induction p generalizing c c' with
  | done | fail => exact ⟨⟨rfl, h⟩, rfl⟩
  | write | writeChar | writeLine | writeDefaultLine | ensureLine | setCompact | setLast | note =>
    obtain ⟨spans, rfl⟩ := h
    exact ⟨⟨rfl, spans, rfl⟩, rfl⟩
  | seq first second ih₁ ih₂ =>
    obtain ⟨same, hextents⟩ := ih₁ h
    simp only [run, extents, Outcome.andThen, same.error, hextents]
    cases (first.run pass renderNode c).error with
    | some error => exact ⟨same, rfl⟩
    | none =>
      obtain ⟨same', hextents'⟩ := ih₂ same.context
      exact ⟨same', by rw [hextents']⟩
  | span style body ih =>
    obtain ⟨same, hextents⟩ := ih (h.openSpan style)
    refine ⟨⟨same.error, same.context.closeSpan _ _⟩, ?_⟩
    rw [extents, extents, hextents, same.context.buffer, (h.openSpan style).buffer]
  | indent i body ih =>
    obtain ⟨same, hextents⟩ := ih (h.map (f := (·.mapBuffer (·.pushIndent i))) fun _ _ => rfl)
    exact ⟨same.mapContext fun _ _ => rfl, hextents⟩
  | withCompact value body ih =>
    obtain ⟨same, hextents⟩ := ih (h.map (f := ({ · with compact := value })) fun _ _ => rfl)
    obtain ⟨spans, rfl⟩ := h
    exact ⟨same.mapContext (f := ({ · with compact := c.compact })) fun _ _ => rfl, hextents⟩
  | withLast value body ih =>
    obtain ⟨same, hextents⟩ := ih (h.map (f := ({ · with last := value })) fun _ _ => rfl)
    obtain ⟨spans, rfl⟩ := h
    exact ⟨same.mapContext (f := ({ · with last := c.last })) fun _ _ => rfl, hextents⟩
  | render node => exact hnode node c c' h
  | intercept tag next ih =>
    obtain ⟨spans, rfl⟩ := h
    exact ih (pass.handles c tag) ⟨spans, rfl⟩
  | observe next ih =>
    obtain ⟨spans, rfl⟩ := h
    exact ih (c.view pass.options) ⟨spans, rfl⟩
  | consult next ih =>
    obtain ⟨spans, rfl⟩ := h
    exact ih c.notes ⟨spans, rfl⟩
  | attempt body next ih₁ ih₂ =>
    obtain ⟨same, hextents⟩ := ih₁ h
    simp only [run, extents, same.error, hextents]
    obtain ⟨same', hextents'⟩ := ih₂ (body.run pass renderNode c).error same.context
    exact ⟨same', by rw [hextents']⟩

namespace Pass

/-- From two contexts of the same depth a node is rendered in the same way: not at all, and without
an error only if it has no rule, or by running its rule one level deeper. -/
theorem render_alike (pass : Pass) (levels : Nat) (node : Node) (c c' : Context)
    (hdepth : c'.depth = c.depth) :
    (∃ error, pass.render levels node c = ⟨c, error⟩ ∧ pass.render levels node c' = ⟨c', error⟩ ∧
        pass.extents levels node c = [] ∧ pass.extents levels node c' = [] ∧
        (error = none → pass.rules.find? node = none)) ∨
      ∃ k rule, levels = k + 1 ∧ pass.rules.find? node = some rule ∧
        ∀ d ∈ [c, c'],
          pass.render levels node d =
            ((rule node).run pass (pass.render k) d.enterNode).mapContext (·.leaveNode) ∧
          pass.extents levels node d =
            (rule node).extents pass (pass.render k) (pass.extents k) d.enterNode := by
  cases hrule : pass.rules.find? node with
  | none =>
    left
    refine ⟨pass.unknownError? node, ?_, ?_, extents_of_none hrule, extents_of_none hrule,
      fun _ => rfl⟩
    · rw [render_of_none hrule, unknown_eq]
    · rw [render_of_none hrule, unknown_eq]
  | some rule =>
    rcases pass.stuck_or_shallow levels c with stuck | ⟨k, rfl, shallow⟩
    · have stuck' : pass.Stuck levels c' := stuck.imp_left (hdepth ▸ ·)
      left
      exact ⟨_, render_of_stuck hrule stuck, render_of_stuck hrule stuck',
        extents_of_stuck hrule stuck, extents_of_stuck hrule stuck', nofun⟩
    · have shallow' : c'.depth < pass.options.maxDepth := hdepth ▸ shallow
      right
      refine ⟨k, rule, rfl, rfl, List.forall_mem_cons.2 ⟨?_, List.forall_mem_singleton.2 ?_⟩⟩
      · exact ⟨render_succ hrule shallow, extents_succ hrule shallow⟩
      · exact ⟨render_succ hrule shallow', extents_succ hrule shallow'⟩

/-- **The rendering of a node does not depend on the spans recorded before**, whatever the rules
are. -/
theorem respanned_render (pass : Pass) (levels : Nat) (node : Node) (c c' : Context)
    (h : c.Respanned c') :
    (pass.render levels node c).Respanned (pass.render levels node c') ∧
      pass.extents levels node c' = pass.extents levels node c := by
  induction levels using Nat.strongRecOn generalizing node c c' with
  | ind levels ih =>
    rcases pass.render_alike levels node c c' h.depth with
      ⟨error, hc, hc', extents, extents', -⟩ | ⟨k, rule, rfl, -, unfolded⟩
    · rw [hc, hc', extents, extents']
      exact ⟨⟨rfl, h⟩, rfl⟩
    · obtain ⟨hc, extents⟩ := unfolded c (.head _)
      obtain ⟨hc', extents'⟩ := unfolded c' (.tail _ (.head _))
      obtain ⟨same, hextents⟩ := (rule node).respanned_run (ih k (Nat.lt_succ_self k))
        (h.map (f := Context.enterNode) fun _ _ => rfl)
      rw [hc, hc', extents, extents']
      exact ⟨same.mapContext fun _ _ => rfl, hextents⟩

end Pass

end MarkdownSpans
