import MarkdownSpans.Markup
import MarkdownSpans.Output.RichText
import MarkdownSpans.Render.Context
import MarkdownSpans.Render.RuleSet

/-!
# Running a pass

`Program.run` runs a program on a context, given what renders the nodes in it. `Pass.render` ties
the knot: it looks up the rule of a node and, unless the depth has reached its limit, runs the
program of the rule one level deeper. `Pass.run` renders a whole document.
-/

namespace MarkdownSpans

/-- What stays the same during a pass. -/
structure Pass where
  rules : RuleSet
  options : RenderOptions := {}
  interceptor : Option Interceptor := none

namespace Pass

/-- Whether the interceptor handles a tag, after those offered before. -/
def handles (pass : Pass) (c : Context) (tag : String) : Bool :=
  pass.interceptor.any fun i => i.handles (c.offers.map (·.1)) tag

end Pass

/-- Run a program; `renderNode` renders the nodes in it. -/
def Program.run (pass : Pass) (renderNode : Node → Context → Outcome) :
    Program → Context → Outcome
  | done, c => c.ok
  | fail error, c => c.failed error
  | seq first second, c =>
    (first.run pass renderNode c).andThen (second.run pass renderNode)
  | write text, c => (c.mapBuffer (·.write text)).ok
  | writeChar ch, c => (c.mapBuffer (·.writeChar ch)).ok
  | writeLine newline, c => (c.mapBuffer (·.writeLine newline)).ok
  | writeDefaultLine, c => (c.mapBuffer (·.writeDefaultLine)).ok
  | ensureLine, c => (c.mapBuffer (·.ensureLine)).ok
  | span style body, c =>
    (body.run pass renderNode (c.openSpan style)).mapContext (·.closeSpan c.spans.size)
  | indent i body, c =>
    (body.run pass renderNode (c.mapBuffer (·.pushIndent i))).mapContext
      (·.mapBuffer (·.popIndent))
  | withCompact value body, c =>
    (body.run pass renderNode { c with compact := value }).mapContext
      ({ · with compact := c.compact })
  | withLast value body, c =>
    (body.run pass renderNode { c with last := value }).mapContext ({ · with last := c.last })
  | setCompact value, c => ({ c with compact := value } : Context).ok
  | setLast value, c => ({ c with last := value } : Context).ok
  | render node, c => renderNode node c
  | intercept tag next, c =>
    let answer := pass.handles c tag
    (next answer).run pass renderNode (c.offer tag answer)
  | observe next, c => (next (c.view pass.options)).run pass renderNode c
  | consult next, c => (next c.notes).run pass renderNode c
  | attempt body next, c =>
    let o := body.run pass renderNode c
    (next o.error).run pass renderNode o.context
  | note n, c => (c.addNote n).ok

namespace Pass

/-- What becomes of a node without a rule. -/
def unknown (pass : Pass) (node : Node) (c : Context) : Outcome :=
  match pass.options.unknownNodes with
  | .skip => c.ok
  | .error => c.failed (.unknownNode node.kindName)

/-- Render a node where at most `levels` nodes may be nested in one another. A node without a rule
is unknown whatever its depth. A pass begins with as many levels as the limit has, so that it always
has as many left as the depth leaves of the limit. -/
def render (pass : Pass) (levels : Nat) (node : Node) (c : Context) : Outcome :=
  match pass.rules.find? node with
  | none => pass.unknown node c
  | some rule =>
    if pass.options.maxDepth ≤ c.depth then
      c.failed (.depthLimit pass.options.maxDepth)
    else
      match levels with
      | 0 => c.failed (.depthLimit pass.options.maxDepth)
      | levels + 1 =>
        ((rule node).run pass (pass.render levels) c.enterNode).mapContext (·.leaveNode)

section Cases

variable {pass : Pass} {levels : Nat} {node : Node} {c : Context} {rule : Rule}

theorem render_of_none (h : pass.rules.find? node = none) :
    pass.render levels node c = pass.unknown node c := by
  rw [render, h]

theorem render_zero (h : pass.rules.find? node = some rule) :
    pass.render 0 node c = c.failed (.depthLimit pass.options.maxDepth) := by
  rw [render, h]
  exact ite_self _

theorem render_of_le (h : pass.rules.find? node = some rule)
    (deep : pass.options.maxDepth ≤ c.depth) :
    pass.render levels node c = c.failed (.depthLimit pass.options.maxDepth) := by
  rw [render, h]
  exact if_pos deep

theorem render_succ (h : pass.rules.find? node = some rule)
    (shallow : c.depth < pass.options.maxDepth) :
    pass.render (levels + 1) node c =
      ((rule node).run pass (pass.render levels) c.enterNode).mapContext (·.leaveNode) := by
  rw [render, h]
  exact if_neg (Nat.not_le_of_lt shallow)

end Cases

end Pass

/-- What a pass over a document gives: its output or its error, and what it left behind. -/
structure Rendering where
  result : Except RenderError RichText
  /-- The raw tags offered to the interceptor with the answers. -/
  offers : List (String × Bool)
  notes : List Note

/-- The number of raw tags that the interceptor handled. -/
def Rendering.consumed (r : Rendering) : Nat := r.offers.countP (·.2)

/-- The output of a pass that ended in a context. -/
def Context.finish (c : Context) : Except RenderError RichText :=
  c.spans.finish.map fun spans => ⟨c.buffer.text, spans, c.buffer.unit⟩

/-- The result of an outcome. -/
def Outcome.result (o : Outcome) : Except RenderError RichText :=
  match o.error with
  | some error => .error error
  | none => o.context.finish

/-- Render a document. -/
def Pass.run (pass : Pass) (document : Document) : Rendering :=
  let o := pass.render pass.options.maxDepth (.document document) (.start pass.options)
  ⟨o.result, o.context.offers, o.context.notes⟩

end MarkdownSpans
