import MarkdownSpans.Proofs.Render.Dispatch
import MarkdownSpans.Proofs.Render.Spans

/-!
# What rendering a node restores

`Pass.render_restores` says what a context still is after a node was rendered, with success or
without. `Pass.render_eq_of_levels` adds that the levels which bound the recursion of `Pass.render`
never stop a pass: the depth in the context reaches its limit first.
-/

namespace MarkdownSpans

/-! ### The bound on the recursion -/

/-- A run on a context depends on the nodes at the depth of the context alone. -/
theorem Program.run_eq_of_levels {pass : Pass} {levels levels' depth : Nat}
    (h : ∀ (node : Node) (c : Context), c.depth = depth →
      pass.render levels node c = pass.render levels' node c)
    (p : Program) (c : Context) (hc : c.depth = depth) :
    p.run pass (pass.render levels) c = p.run pass (pass.render levels') c := by
  have depth_run (p : Program) (c : Context) (hc : c.depth = depth) :
      (p.run pass (pass.render levels') c).context.depth = depth :=
    (p.passage_run (pass.passage_render levels') c).depth.trans hc
  induction p generalizing c with
  | done | fail | write | writeChar | writeLine | writeDefaultLine | ensureLine | setCompact
  | setLast | note => rfl
  | seq first second ih₁ ih₂ =>
    simp only [run, Outcome.andThen, ih₁ c hc]
    split
    · exact ih₂ _ (depth_run first c hc)
    · rfl
  | span style body ih => simp only [run, ih (c.openSpan style) hc]
  | indent i body ih => simp only [run, ih (c.mapBuffer (·.pushIndent i)) hc]
  | withCompact value body ih => simp only [run, ih { c with compact := value } hc]
  | withLast value body ih => simp only [run, ih { c with last := value } hc]
  | render node => exact h node c hc
  | intercept tag next ih => exact ih _ (c.offer tag (pass.handles c tag)) hc
  | observe next ih => exact ih (c.view pass.options) c hc
  | consult next ih => exact ih c.notes c hc
  | attempt body next ih₁ ih₂ =>
    simp only [run, ih₁ c hc]
    exact ih₂ _ _ (depth_run body c hc)

/-- Where the levels reach the limit of the depth, their number does not matter. -/
theorem Pass.render_eq_of_levels {pass : Pass} {levels levels' : Nat} {node : Node} {c : Context}
    (h : pass.options.maxDepth ≤ c.depth + levels)
    (h' : pass.options.maxDepth ≤ c.depth + levels') :
    pass.render levels node c = pass.render levels' node c := by
  induction levels generalizing levels' node c with
  | zero =>
    cases hrule : pass.rules.find? node with
    | none => rw [render_of_none hrule, render_of_none hrule]
    -- No level is left, so the depth is at its limit whatever the other levels are.
    | some rule => rw [render_of_le hrule (by omega), render_of_le hrule (by omega)]
  | succ levels ih =>
    cases hrule : pass.rules.find? node with
    | none => rw [render_of_none hrule, render_of_none hrule]
    | some rule =>
      rcases Nat.lt_or_ge c.depth pass.options.maxDepth with shallow | deep
      · obtain ⟨k, rfl⟩ : ∃ k, levels' = k + 1 :=
          Nat.exists_eq_succ_of_ne_zero (by omega)
        have inside (part : Node) (d : Context) (hd : d.depth = c.depth + 1) :
            pass.render levels part d = pass.render k part d := ih (by omega) (by omega)
        rw [render_succ hrule shallow, render_succ hrule shallow,
          Program.run_eq_of_levels inside (rule node) c.enterNode rfl]
      · rw [render_of_le hrule deep, render_of_le hrule deep]

/-! ### Restoration -/

/-- `d` is what `c` was, with more text, with more spans, all of them closed, and with more of the
leads of its open containers used up. -/
structure Context.Restored (c d : Context) : Prop where
  depth : d.depth = c.depth
  indents : List.Forall₂ Indent.AdvancesTo c.buffer.indents d.buffer.indents
  text : ∃ piece, d.buffer.text = c.buffer.text ++ piece
  spans : ∃ opened, d.spans.spans = c.spans.spans ++ opened ∧ ∀ t ∈ opened, t.isClosed

theorem Passage.restored {c d : Context} {es : List SpanExtent} (h : Passage c es d) :
    c.Restored d where
  depth := h.depth
  indents := h.continues.advancesTo
  text := by
    obtain ⟨piece, hpiece, -⟩ := h.continues.appended
    exact ⟨piece, hpiece⟩
  spans := by
    refine ⟨es.map SpanExtent.tracked, h.spans, fun t ht => ?_⟩
    obtain ⟨e, -, rfl⟩ := List.mem_map.1 ht
    rfl

namespace Pass

/-- **Rendering a node restores the context, whether or not it fails.** Whatever the rules are, the
depth, the open containers, the text so far and the spans so far are there again, and every new span
is closed; standard rules restore both flags as well. Hence a pass over a document always ends with
no container open and with spans that can be finished. -/
theorem render_restores (pass : Pass) (levels : Nat) (node : Node) (c : Context) :
    c.Restored (pass.render levels node c).context ∧
    (pass.rules = .standard →
      (pass.render levels node c).context.compact = c.compact ∧
        (pass.render levels node c).context.last = c.last) ∧
    ∀ document : Document,
      (pass.outcome document).context.buffer.indents = [] ∧
        ∃ r, (pass.outcome document).context.finish = .ok r := by
  refine ⟨(pass.passage_render levels node c).restored, fun hrules => ?_, fun document => ?_⟩
  · exact flags_render (hrules ▸ RuleSet.followsStandard_standard) levels node c
  · have passage := pass.passage_outcome document
    exact ⟨passage.continues.indents_eq_nil rfl, _, passage.finish⟩

/-- A paragraph in a list in a quote is left by an error inside two spans: what was written stays,
the spans are closed, and flags and containers are those of before. -/
theorem render_restores_failed_quote :
    let pass : Pass := { rules := .standard, options := { maxDepth := 6 } }
    let c : Context := { Context.start pass.options with
      compact := true, last := false, buffer := (Buffer.empty .utf16 .lf).pushIndent (.spaces 2) }
    let strong : Inline := .emphasis '*' 2 [.literal "b", .emphasis '_' 1 [.literal "c"]]
    let node : Node := .block (.quote [.marked .lf]
      [.list {} [.mk [.paragraph [.literal "a", strong] {}] {}] {}] {})
    let o := pass.render 6 node c
    o.error = some (.depthLimit 6) ∧ o.context.buffer.text = "  > - ab" ∧
      o.context.spans.spans = [⟨{ kind := .bold }, 7, some 8⟩, ⟨{ kind := .italic }, 8, some 8⟩] ∧
      c.Restored o.context ∧ o.context.compact = true ∧ o.context.last = false :=
  ⟨rfl, rfl, rfl, (render_restores _ 6 _ _).1, (render_restores _ 6 _ _).2.1 rfl⟩

end Pass

end MarkdownSpans
