import MarkdownSpans.Proofs.Document.Nesting
import MarkdownSpans.Proofs.Render.Dispatch
import MarkdownSpans.Proofs.Render.Spans

/-!
# Rendering within the limit of nesting

`Pass.result_of_within` says that the standard rules render a document wherever the limit of the
pass leaves room for the nodes on the way to a leaf: the document, the containers, the leaf block,
its inline containers and the inline in them.
-/

namespace MarkdownSpans

namespace Pass

variable {pass : Pass} {levels : Nat}

section BuiltIn

variable {node : Node}

/-- No node is rendered without a level. -/
theorem failure_zero_of_standard (hrules : pass.rules = .standard)
    (hname : node.customName? = none) :
    pass.failure 0 node = some (.depthLimit pass.options.maxDepth) :=
  failure_zero (find?_of_standard hrules hname)

/-- A node with a level fails by the first of its parts that fails. -/
theorem failure_succ_of_standard (hrules : pass.rules = .standard)
    (hname : node.customName? = none) :
    pass.failure (levels + 1) node = node.parts.findSome? (pass.failure levels) :=
  failure_succ levels (find?_of_standard hrules hname)

/-- A node does not fail if none of its parts does. -/
theorem failure_succ_eq_none (hrules : pass.rules = .standard) (hname : node.customName? = none)
    (h : ∀ part ∈ node.parts, pass.failure levels part = none) :
    pass.failure (levels + 1) node = none := by
  rw [failure_succ_of_standard hrules hname, List.findSome?_eq_none_iff]
  exact h

/-- A node with one part fails as its part does. -/
theorem failure_succ_of_part {part : Node} {error : RenderError} (hrules : pass.rules = .standard)
    (hname : node.customName? = none) (hparts : node.parts = [part])
    (h : pass.failure levels part = some error) : pass.failure (levels + 1) node = some error := by
  rw [failure_succ_of_standard hrules hname, hparts, List.findSome?_cons, h]

end BuiltIn

theorem failure_inline (hrules : pass.rules = .standard) {n : Nat} {i : Inline} (h : i.Within n)
    (hlevels : n < levels) : pass.failure levels (.inline i) = none := by
  obtain ⟨levels, rfl⟩ : ∃ k, levels = k + 1 := Nat.exists_eq_succ_of_ne_zero (by omega)
  induction h generalizing levels with
  | literal | codeSpan | autolink | lineBreak | htmlInline | htmlEntity =>
    exact failure_succ_eq_none hrules rfl (List.forall_mem_nil _)
  | emphasis _ _ _ ih | link _ _ _ _ ih | delimiter _ _ ih =>
    refine failure_succ_eq_none hrules rfl fun part hpart => ?_
    obtain ⟨i, hi, rfl⟩ := List.mem_map.1 hpart
    obtain ⟨levels, rfl⟩ : ∃ k, levels = k + 1 := Nat.exists_eq_succ_of_ne_zero (by omega)
    exact ih i hi levels (by omega)

theorem failure_block (hrules : pass.rules = .standard) {m n : Nat} {b : Block} (h : b.Within m n)
    (hlevels : n + m + 1 < levels) : pass.failure levels (.block b) = none := by
  obtain ⟨levels, rfl⟩ : ∃ k, levels = k + 1 := Nat.exists_eq_succ_of_ne_zero (by omega)
  induction h generalizing levels with
  | codeBlock | thematicBreak | htmlBlock | linkDefinition | emptyBlock =>
    exact failure_succ_eq_none hrules rfl (List.forall_mem_nil _)
  | paragraph _ h | heading _ _ _ h =>
    refine failure_succ_eq_none hrules rfl fun part hpart => ?_
    obtain ⟨i, hi, rfl⟩ := List.mem_map.1 hpart
    exact failure_inline hrules (h i hi) (by omega)
  | linkDefinitionGroup =>
    refine failure_succ_eq_none hrules rfl fun part hpart => ?_
    obtain ⟨d, -, rfl⟩ := List.mem_map.1 hpart
    obtain ⟨levels, rfl⟩ : ∃ k, levels = k + 1 := Nat.exists_eq_succ_of_ne_zero (by omega)
    exact failure_succ_eq_none hrules rfl (List.forall_mem_nil _)
  | quote _ _ _ ih =>
    refine failure_succ_eq_none hrules rfl fun part hpart => ?_
    obtain ⟨b, hb, rfl⟩ := List.mem_map.1 hpart
    obtain ⟨levels, rfl⟩ : ∃ k, levels = k + 1 := Nat.exists_eq_succ_of_ne_zero (by omega)
    exact ih b hb levels (by omega)
  | list _ _ _ ih =>
    -- The list and its item are both nodes.
    obtain ⟨levels, rfl⟩ : ∃ k, levels = k + 2 := Nat.exists_eq_add_of_le' (by omega)
    refine failure_succ_eq_none hrules rfl fun part hpart => ?_
    obtain ⟨item, hitem, rfl⟩ := List.mem_map.1 hpart
    refine failure_succ_eq_none hrules rfl fun part hpart => ?_
    obtain ⟨b, hb, rfl⟩ := List.mem_map.1 hpart
    exact ih item hitem b hb levels (by omega)

/-- The error of a pass with standard rules is the failure of its document. -/
theorem error_outcome (hrules : pass.rules = .standard) (document : Document) :
    (pass.outcome document).error = pass.failure pass.options.maxDepth (.document document) :=
  error_render (hrules ▸ RuleSet.followsStandard_standard) _ _ _ (Nat.zero_add _)

/-- **A document that is nested less deep than the limit allows is rendered without error.** -/
theorem result_of_within (hrules : pass.rules = .standard) {document : Document} {m n : Nat}
    (h : ∀ b ∈ document.blocks, b.Within m n) (hlimit : n + m + 3 ≤ pass.options.maxDepth) :
    ∃ r, (pass.run document).result = .ok r := by
  obtain ⟨levels, hlevels⟩ : ∃ k, pass.options.maxDepth = k + 1 :=
    Nat.exists_eq_succ_of_ne_zero (by omega)
  have noFailure : pass.failure pass.options.maxDepth (.document document) = none := by
    rw [hlevels]
    refine failure_succ_eq_none hrules rfl fun part hpart => ?_
    obtain ⟨b, hb, rfl⟩ := List.mem_map.1 hpart
    exact failure_block hrules (h b hb) (by omega)
  rw [result_run, error_outcome hrules, noFailure]
  exact ⟨_, rfl⟩

end Pass

end MarkdownSpans
