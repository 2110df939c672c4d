import Mathlib.Logic.Relation
import MarkdownSpans.Proofs.Render.Congruence
import MarkdownSpans.Proofs.Render.Nested
import MarkdownSpans.Proofs.Render.StyledSpans

/-!
# What a pass comes to

A `Moment` is a program that is about to be run on a context; `Moment.Reaches` is the way from it
into the parts of its run. What a successful run reaches succeeds too (`Moment.Reaches.success`),
and a successful rendering with the standard rules reaches every node below the one it renders
(`Program.LeadsTo.below`).
-/

namespace MarkdownSpans

/-- A program that is about to be run on a context, with so many levels below. -/
structure Moment where
  levels : Nat
  program : Program
  context : Context

namespace Moment

/-- What the run of the program ends in. -/
def outcome (pass : Pass) (m : Moment) : Outcome :=
  m.program.run pass (pass.render m.levels) m.context

/-- From a program to a part of it that it runs. A program that catches errors or goes by remarks,
as no standard rule does, is not looked into. -/
inductive Step (pass : Pass) : Moment → Moment → Prop where
  | first {levels : Nat} {p q : Program} {c : Context} :
    Step pass ⟨levels, .seq p q, c⟩ ⟨levels, p, c⟩
  | second {levels : Nat} {p q : Program} {c : Context}
    (h : (p.run pass (pass.render levels) c).error = none) :
    Step pass ⟨levels, .seq p q, c⟩ ⟨levels, q, (p.run pass (pass.render levels) c).context⟩
  | wrap {levels : Nat} {p : Program} {c : Context} (w : Wrapper) :
    Step pass ⟨levels, w.around p, c⟩ ⟨levels, p, w.enter c⟩
  | withLast {levels : Nat} {p : Program} {c : Context} (value : Bool) :
    Step pass ⟨levels, .withLast value p, c⟩ ⟨levels, p, { c with last := value }⟩
  | intercept {levels : Nat} {next : Bool → Program} {c : Context} (tag : String) :
    Step pass ⟨levels, .intercept tag next, c⟩
      ⟨levels, next (pass.handles c tag), c.offer tag (pass.handles c tag)⟩
  | observe {levels : Nat} {next : View → Program} {c : Context} :
    Step pass ⟨levels, .observe next, c⟩ ⟨levels, next (c.view pass.options), c⟩
  /-- The rule of a node is run one level deeper. -/
  | render {levels : Nat} {node : Node} {rule : Rule} {c : Context}
    (hrule : pass.rules.find? node = some rule) (shallow : c.depth < pass.options.maxDepth) :
    Step pass ⟨levels + 1, .render node, c⟩ ⟨levels, rule node, c.enterNode⟩

variable {pass : Pass} {m m' : Moment}

/-- A part of a successful run succeeds. -/
theorem Step.success (h : Step pass m m') (success : (m.outcome pass).error = none) :
    (m'.outcome pass).error = none := by
  cases h with
  | first => exact (Outcome.of_error_andThen success).1
  | second => exact (Outcome.of_error_andThen success).2
  | wrap w =>
    rw [outcome, w.run_around] at success
    exact success
  | withLast | intercept | observe => exact success
  | @render levels node rule c hrule shallow =>
    change (pass.render (levels + 1) node c).error = none at success
    rwa [Pass.render_succ hrule shallow] at success

/-- On the way into a run the default terminator stays the same. -/
theorem Step.newline (h : Step pass m m') :
    m'.context.buffer.newline = m.context.buffer.newline := by
  cases h with
  | @second levels p q c =>
    exact (p.passage_run (pass.passage_render levels) c).continues.newline
  | @wrap levels p c w =>
    cases w with
    | span style => exact c.buffer.continues_flushIndent.newline
    | indent | withCompact => rfl
  | first | withLast | intercept | observe | render => rfl

/-- The run of the first program comes to the second one. -/
def Reaches (pass : Pass) : Moment → Moment → Prop := Relation.ReflTransGen (Step pass)

/-- **What a successful run comes to succeeds.** -/
theorem Reaches.success (h : Reaches pass m m') (success : (m.outcome pass).error = none) :
    (m'.outcome pass).error = none := by
  induction h with
  | refl => exact success
  | tail _ step ih => exact step.success ih

theorem Reaches.newline (h : Reaches pass m m') :
    m'.context.buffer.newline = m.context.buffer.newline := by
  induction h with
  | refl => rfl
  | tail _ step ih => exact step.newline.trans ih

end Moment

open Moment (Step Reaches)

namespace Program

variable {pass : Pass} {p q r : Program}

/-- Every successful run of the first program comes to the second one. -/
def LeadsTo (pass : Pass) (p q : Program) : Prop :=
  ∀ levels c, (Moment.outcome pass ⟨levels, p, c⟩).error = none →
    ∃ levels' c', Reaches pass ⟨levels, p, c⟩ ⟨levels', q, c'⟩

namespace LeadsTo

theorem refl (p : Program) : LeadsTo pass p p := fun _ _ _ => ⟨_, _, .refl⟩

theorem trans (hpq : LeadsTo pass p q) (hqr : LeadsTo pass q r) : LeadsTo pass p r := by
  intro levels c success
  obtain ⟨levels', c', reached⟩ := hpq levels c success
  obtain ⟨levels'', c'', onward⟩ := hqr levels' c' (reached.success success)
  exact ⟨levels'', c'', reached.trans onward⟩

/-- What a step in every run leads to. -/
theorem of_step (h : ∀ levels c, (Moment.outcome pass ⟨levels, p, c⟩).error = none →
    ∃ levels' c', Step pass ⟨levels, p, c⟩ ⟨levels', q, c'⟩) : LeadsTo pass p q := by
  intro levels c success
  obtain ⟨levels', c', step⟩ := h levels c success
  exact ⟨levels', c', .single step⟩

theorem first (q : Program) (h : LeadsTo pass p r) : LeadsTo pass (.seq p q) r :=
  .trans (of_step fun levels c _ => ⟨levels, c, .first⟩) h

theorem second (p : Program) (h : LeadsTo pass q r) : LeadsTo pass (.seq p q) r :=
  .trans (of_step fun _ _ success => ⟨_, _, .second (Outcome.of_error_andThen success).1⟩) h

theorem wrap (w : Wrapper) (h : LeadsTo pass p r) : LeadsTo pass (w.around p) r :=
  .trans (of_step fun levels c _ => ⟨levels, w.enter c, .wrap w⟩) h

theorem withLast (value : Bool) (h : LeadsTo pass p r) : LeadsTo pass (.withLast value p) r :=
  .trans (of_step fun _ _ _ => ⟨_, _, .withLast value⟩) h

theorem intercept {next : Bool → Program} (tag : String)
    (h : ∀ answer, LeadsTo pass (next answer) r) : LeadsTo pass (.intercept tag next) r := by
  intro levels c success
  obtain ⟨levels', c', onward⟩ := h _ levels _ (Step.success (.intercept tag) success)
  exact ⟨levels', c', .head (.intercept tag) onward⟩

theorem observe {next : View → Program} (h : ∀ view, LeadsTo pass (next view) r) :
    LeadsTo pass (.observe next) r := by
  intro levels c success
  obtain ⟨levels', c', onward⟩ := h _ levels c success
  exact ⟨levels', c', .head .observe onward⟩

theorem quoted (leads : List String) (h : LeadsTo pass p r) : LeadsTo pass (.quoted leads p) r := by
  refine observe fun view => ?_
  split
  · exact wrap (.indent _) h
  · exact second _ (wrap (.indent _) h)

/-- A program that has nodes rendered leads to the rendering of each of them. -/
theorem of_renders {nodes : List Node} (h : p.Renders nodes) {node : Node} (hnode : node ∈ nodes) :
    LeadsTo pass p (.render node) := by
  induction h with
  | done | write | writeChar | writeLine | writeDefaultLine | ensureLine => cases hnode
  | seq _ _ ihp ihq =>
    rcases List.mem_append.1 hnode with hnode | hnode
    · exact (ihp hnode).first _
    · exact (ihq hnode).second _
  | span style _ ih => exact wrap (.span style) (ih hnode)
  | indent i _ ih => exact wrap (.indent i) (ih hnode)
  | withCompact value _ ih => exact wrap (.withCompact value) (ih hnode)
  | withLast value _ ih => exact (ih hnode).withLast value
  | render part =>
    obtain rfl := List.mem_singleton.1 hnode
    exact refl _
  | intercept tag _ ih => exact intercept tag fun answer => ih answer hnode
  | observe _ ih => exact observe fun view => ih view hnode

/-- The rendering of a node leads to its standard rule. -/
theorem render (hrules : pass.rules = .standard) {node : Node} (hname : node.customName? = none) :
    LeadsTo pass (.render node) node.program := by
  refine of_step fun levels c success => ?_
  change (pass.render levels node c).error = none at success
  have hrule := Pass.find?_of_standard hrules hname
  rcases pass.stuck_or_shallow levels c with stuck | ⟨k, rfl, shallow⟩
  · rw [Pass.render_of_stuck hrule stuck] at success
    cases success
  · have step : Step pass ⟨k + 1, .render node, c⟩ ⟨k, _, c.enterNode⟩ := .render hrule shallow
    rw [standardRule, if_pos rfl] at step
    exact ⟨k, _, step⟩

/-- **A successful rendering comes to every node below.** -/
theorem below (hrules : pass.rules = .standard) {node part : Node}
    (h : Relation.ReflTransGen (fun node part => part ∈ node.parts) node part) :
    LeadsTo pass (.render node) (.render part) := by
  induction h with
  | refl => exact refl _
  | @tail node part _ hpart ih =>
    have name : node.customName? = none := by
      cases node with
      | document | item => rfl
      | block b => cases b <;> first | rfl | cases hpart
      | inline i => cases i <;> first | rfl | cases hpart
    exact (ih.trans (render hrules name)).trans (of_renders node.renders_program hpart)

/-- Blocks lead to those behind the first ones. -/
theorem blocks (before behind : List Block) :
    LeadsTo pass (.blocks (before ++ behind)) (.blocks behind) := by
  induction before with
  | nil => exact refl _
  | cons b rest ih => exact ih.second _

/-- Items lead to those behind the first ones, with the number of the first of them. -/
theorem items (style : ListStyle) (index : Nat) (before behind : List ListItem) :
    LeadsTo pass (.items style index (before ++ behind))
      (.items style ((nextIndex style)^[before.length] index) behind) := by
  induction before generalizing index with
  | nil => exact refl _
  | cons item rest ih =>
    have last : LeadsTo pass (.all [.items style (nextIndex style index) (rest ++ behind)])
        (.items style ((nextIndex style)^[(item :: rest).length] index) behind) := (ih _).first _
    exact ((((last.second _).second _).second _).second _).second _

end LeadsTo

end Program

end MarkdownSpans
