import Mathlib.Data.List.TakeWhile
import MarkdownSpans.Proofs.Document.Tags
import MarkdownSpans.Proofs.Render.Congruence
import MarkdownSpans.Proofs.Render.Fault

/-!
# Intercepting raw tags

A pass with the standard rules offers the interceptor each raw tag that it reaches, once and in
document order (`Pass.asks_render`). What it does then is what a pass without interceptor does on
the document in which the tags that were handled are empty literals (`Pass.echoes_render`).
Together: `Pass.run_intercepted`.
-/

namespace MarkdownSpans

/-! ### The tags that are offered -/

namespace Pass

/-- Tags offered in turn behind those offered before, with the answers of the interceptor. -/
def replies (pass : Pass) (prior : List String) : List String → List (String × Bool)
  | [] => []
  | tag :: rest =>
    (tag, pass.interceptor.any fun i => i.handles prior tag) :: pass.replies (prior ++ [tag]) rest

theorem map_fst_replies (pass : Pass) (prior tags : List String) :
    (pass.replies prior tags).map (·.1) = tags := by
  induction tags generalizing prior with
  | nil => rfl
  | cons tag rest ih => rw [replies, List.map_cons, ih]

theorem replies_append (pass : Pass) (prior s t : List String) :
    pass.replies prior (s ++ t) = pass.replies prior s ++ pass.replies (prior ++ s) t := by
  induction s generalizing prior with
  | nil => rw [List.append_nil]; rfl
  | cons tag rest ih => simp [replies, ih]

/-- Whether a visited node can be rendered: it has a rule and is not too deep. -/
def admits (pass : Pass) (v : Visit) : Bool := (v.fault? [] pass.options.maxDepth).isNone

/-- The raw tags among the visits before the first fault. -/
def reached (pass : Pass) (visits : List Visit) : List String :=
  (visits.takeWhile pass.admits).filterMap (·.node.tag?)

variable {pass : Pass} {vs ws : List Visit}

theorem reached_append (h : ∀ v ∈ vs, pass.admits v) :
    pass.reached (vs ++ ws) = pass.reached vs ++ pass.reached ws := by
  have all : vs.takeWhile pass.admits = vs := List.takeWhile_eq_self_iff.2 h
  rw [reached, List.takeWhile_append_of_pos h, List.filterMap_append, reached, reached, all]

theorem reached_append_of_fault (h : ¬∀ v ∈ vs, pass.admits v) :
    pass.reached (vs ++ ws) = pass.reached vs := by
  have stops : vs.takeWhile pass.admits ≠ vs := fun heq => h (List.takeWhile_eq_self_iff.1 heq)
  rw [reached, reached, List.takeWhile_append, if_neg fun hlength =>
    stops ((List.takeWhile_prefix _).eq_of_length hlength)]

/-- Behind a fault no tag is reached. -/
theorem reached_cons_of_fault {v : Visit} (h : pass.admits v = false) :
    pass.reached (v :: vs) = [] := by
  simp [reached, h]

theorem reached_cons {v : Visit} (h : pass.admits v = true) :
    pass.reached (v :: vs) = v.node.tag?.toList ++ pass.reached vs := by
  rw [reached, List.takeWhile_cons_of_pos h, List.filterMap_cons]
  cases v.node.tag? <;> rfl

end Pass

namespace Program

/-- The program renders nodes whose visits are these: it succeeds if all of them can be rendered,
and offers the tags among those before the first that cannot. -/
def Asks (pass : Pass) (levels : Nat) (vs : List Visit) (p : Program) : Prop :=
  ∀ c : Context, c.depth + levels = pass.options.maxDepth →
    ((p.run pass (pass.render levels) c).error = none ↔ ∀ v ∈ vs, pass.admits v) ∧
      (p.run pass (pass.render levels) c).context.offers =
        c.offers ++ pass.replies (c.offers.map (·.1)) (pass.reached vs)

namespace Asks

variable {pass : Pass} {levels : Nat} {vs ws : List Visit} {p q : Program}

theorem maps (h : p.MapsBuffer) : Asks pass levels [] p := by
  intro c _
  obtain ⟨f, hf⟩ := h
  rw [hf]
  exact ⟨by simp [Context.ok], (List.append_nil c.offers).symm⟩

theorem seq (hp : Asks pass levels vs p) (hq : Asks pass levels ws q) :
    Asks pass levels (vs ++ ws) (.seq p q) := by
  intro c hdepth
  obtain ⟨succeeds, offered⟩ := hp c hdepth
  have depth : (p.run pass (pass.render levels) c).context.depth = c.depth :=
    (p.passage_run (pass.passage_render levels) c).depth
  rw [run, Outcome.andThen]
  cases herror : (p.run pass (pass.render levels) c).error with
  | none =>
    have admitted := succeeds.1 herror
    obtain ⟨succeeds', offered'⟩ := hq (p.run pass (pass.render levels) c).context
      (by rw [depth]; exact hdepth)
    refine ⟨succeeds'.trans ?_, ?_⟩
    · rw [List.forall_mem_append]
      exact ⟨fun h => ⟨admitted, h⟩, fun h => h.2⟩
    · simp only [offered', offered, Pass.reached_append admitted, Pass.replies_append,
        List.map_append, Pass.map_fst_replies, List.append_assoc]
  | some error =>
    have faulty : ¬∀ v ∈ vs, pass.admits v := fun h => by
      rw [succeeds.2 h] at herror
      cases herror
    refine ⟨iff_of_false (by simp [herror]) fun h => faulty fun v hv => h v ?_, ?_⟩
    · exact List.mem_append_left _ hv
    · rw [Pass.reached_append_of_fault faulty]
      exact offered

theorem wrap (w : Wrapper) (hp : Asks pass levels vs p) : Asks pass levels vs (w.around p) := by
  intro c hdepth
  have entered : (w.enter c).depth = c.depth ∧ (w.enter c).offers = c.offers := by
    cases w <;> exact ⟨rfl, rfl⟩
  have left (d : Context) : (w.leave c d).offers = d.offers := by cases w <;> rfl
  have inside := hp (w.enter c) (by rw [entered.1]; exact hdepth)
  rw [entered.2] at inside
  rw [w.run_around]
  exact ⟨inside.1, (left _).trans inside.2⟩

/-- What the nodes of a program are asked does not depend on which program it is compared with. -/
theorem congruence (pass : Pass) (levels : Nat) :
    SpanCongruence True fun vs p _ => Asks pass levels vs p where
  maps := maps
  seq := seq
  wrap w _ := wrap w
  span style := wrap (.span style)
  withLast _ hp c hdepth := hp { c with last := _ } hdepth
  observe h c hdepth := h (c.view pass.options) _ ⟨rfl, rfl, fun _ => rfl⟩ c hdepth

end Asks

end Program

namespace Pass

variable {pass : Pass} {levels level : Nat} {node : Node}

theorem admits_eq_false_iff {v : Visit} :
    pass.admits v = false ↔ v.node.isUnknown [] ∨ pass.options.maxDepth < v.level := by
  rw [← @Visit.isSome_fault?_iff [] pass.options.maxDepth v, admits, Option.isNone_eq_false_iff]

/-- The rule of a tag offers it and writes it unless it is handled. -/
theorem run_tag (pass : Pass) (tag : String) (renderNode : Node → Context → Outcome)
    (c : Context) :
    (Node.inline (.htmlInline tag)).program.run pass renderNode c =
      ((c.offer tag (pass.handles c tag)).mapBuffer
        (if pass.handles c tag then id else (·.write tag))).ok := by
  show ((if pass.handles c tag then Program.done else .write tag).run pass renderNode
    (c.offer tag (pass.handles c tag))) = _
  split <;> rfl

/-- A rendering that fails at once offers no tag. -/
theorem asks_of_failed (hnode : pass.enters [] node = true)
    (hfault : pass.admits ⟨level, node⟩ = false)
    (h : ∀ c : Context, c.depth + levels = pass.options.maxDepth →
      ∃ error, pass.render levels node c = c.failed error) :
    Program.Asks pass levels (node.visits (pass.enters []) level) (.render node) := by
  intro c hdepth
  obtain ⟨error, hfailed⟩ := h c hdepth
  rw [Program.run, hfailed, Node.visits_of_enters level hnode, reached_cons_of_fault hfault]
  refine ⟨iff_of_false (by simp [Context.failed]) fun admitted => ?_, (List.append_nil _).symm⟩
  rw [admitted _ (.head _)] at hfault
  cases hfault

theorem asks_of_unknown (hrules : pass.rules = .standard) (hnode : node.isUnknown [] = true) :
    Program.Asks pass levels (node.visits (pass.enters []) level) (.render node) := by
  have hrule : pass.rules.find? node = none :=
    hrules ▸ RuleSet.find?_standardWithout_of_unknown hnode
  cases hpolicy : pass.options.unknownNodes with
  | error =>
    have entered : pass.enters [] node = true := by simp [enters, hpolicy]
    refine asks_of_failed entered (admits_eq_false_iff.2 (.inl hnode)) fun c _ => ?_
    rw [render_of_none hrule, unknown, hpolicy]
    exact ⟨_, rfl⟩
  | skip =>
    have left_out : pass.enters [] node = false := by simp [enters, hpolicy, hnode]
    intro c _
    rw [Program.run, render_of_none hrule, unknown, hpolicy,
      Node.visits_of_not_enters level left_out]
    exact ⟨by simp [Context.ok], (List.append_nil c.offers).symm⟩

/-- **The rendering of a node offers the tags that are reached below it.** -/
theorem asks_render (hrules : pass.rules = .standard)
    (hlevel : level + levels = pass.options.maxDepth + 1) (node : Node) :
    Program.Asks pass levels (node.visits (pass.enters []) level) (.render node) := by
  induction levels generalizing level node with
  | zero =>
    cases hnode : node.isUnknown [] with
    | true => exact asks_of_unknown hrules hnode
    | false =>
      have hrule : pass.rules.find? node = some (standardRule node.kind) :=
        hrules ▸ RuleSet.find?_standardWithout_of_known hnode
      have deep : pass.options.maxDepth < level := by omega
      exact asks_of_failed (enters_of_known hnode) (admits_eq_false_iff.2 (.inr deep))
        fun c _ => ⟨_, render_zero hrule⟩
  | succ levels ih =>
    cases hnode : node.isUnknown [] with
    | true => exact asks_of_unknown hrules hnode
    | false =>
      have hrule : pass.rules.find? node = some (standardRule node.kind) :=
        hrules ▸ RuleSet.find?_standardWithout_of_known hnode
      have admitted : pass.admits ⟨level, node⟩ = true := by
        rw [← Bool.not_eq_false, admits_eq_false_iff, hnode]
        simp only [Bool.false_eq_true, false_or]
        omega
      have below (part : Node) :
          Program.Asks pass levels (part.visits (pass.enters []) (level + 1)) (.render part) :=
        ih (by omega) part
      intro c hdepth
      have shallow : c.depth < pass.options.maxDepth := by omega
      rw [Program.run, render_succ hrule shallow, standardRule, if_pos rfl,
        Node.visits_of_enters level (enters_of_known hnode), reached_cons admitted,
        List.forall_mem_cons, and_iff_right admitted]
      have entered : c.enterNode.depth + levels = pass.options.maxDepth := by
        show c.depth + 1 + levels = _
        omega
      cases htag : node.tag? with
      | none =>
        have untagged : ∀ tag, node ≠ .inline (.htmlInline tag) := by
          rintro tag rfl
          cases htag
        exact (Program.Asks.congruence pass levels).program_self below untagged c.enterNode entered
      | some tag =>
        obtain rfl := Node.eq_of_tag? htag
        rw [run_tag]
        exact ⟨iff_of_true rfl (List.forall_mem_nil _), rfl⟩

end Pass

/-! ### The same with the answers in the document -/

/-- The pass without its interceptor. -/
def Pass.unasked (pass : Pass) : Pass := { pass with interceptor := none }

/-- The contexts differ in the tags offered at most. -/
def Context.Beside (c c' : Context) : Prop := ∃ offers, c' = { c with offers }

/-- The same error, if any, and contexts that differ in the tags offered at most. -/
structure Outcome.Beside (o o' : Outcome) : Prop where
  error : o'.error = o.error
  context : o.context.Beside o'.context

/-- Behind the tags offered before, the first tags of a list were offered, and all of them unless
there was an error. -/
structure Outcome.Tells (asked told prior : List (String × Bool)) (o : Outcome) : Prop where
  offers : o.context.offers = prior ++ told
  beginning : told.map (·.1) <+: asked.map (·.1)
  all : o.error = none → told.map (·.1) = asked.map (·.1)

namespace Context.Beside

variable {c c' : Context}

/-- The contexts may be changed in a way that does not depend on the tags offered. -/
theorem map {f : Context → Context} (h : c.Beside c')
    (hf : ∀ (d : Context) (offers : List (String × Bool)),
      f { d with offers } = { f d with offers }) : (f c).Beside (f c') := by
  obtain ⟨offers, rfl⟩ := h
  exact ⟨offers, hf c offers⟩

end Context.Beside

namespace Outcome

variable {o o' : Outcome} {asked told prior : List (String × Bool)}

theorem Tells.mapContext {f : Context → Context} (h : Tells asked told prior o)
    (hf : ∀ d, (f d).offers = d.offers) : Tells asked told prior (o.mapContext f) :=
  ⟨(hf _).trans h.offers, h.beginning, h.all⟩

theorem tells_nil {c : Context} {error : Option RenderError} (h : error = none → asked = []) :
    Tells asked [] c.offers ⟨c, error⟩ :=
  ⟨(List.append_nil _).symm, List.nil_prefix, fun herror => by rw [h herror]⟩

theorem Beside.mapContext {f : Context → Context} (h : o.Beside o')
    (hf : ∀ (d : Context) (offers : List (String × Bool)),
      f { d with offers } = { f d with offers }) : (o.mapContext f).Beside (o'.mapContext f) :=
  ⟨h.error, h.context.map hf⟩

end Outcome

namespace Program

/-- The first program offers tags, and where they get the answers of this list, the second one does
the same without interceptor. -/
def Echoes (pass : Pass) (levels : Nat) (asked : List (String × Bool)) (p p' : Program) : Prop :=
  ∀ c : Context, ∃ told, (p.run pass (pass.render levels) c).Tells asked told c.offers ∧
    (told <+: asked → ∀ c', c.Beside c' →
      (p.run pass (pass.render levels) c).Beside
        (p'.run pass.unasked (pass.unasked.render levels) c'))

namespace Echoes

variable {pass : Pass} {levels : Nat} {a b : List (String × Bool)} {p p' q q' : Program}

theorem maps (h : p.MapsBuffer) : Echoes pass levels [] p p := by
  intro c
  obtain ⟨f, hf⟩ := h
  simp only [hf]
  exact ⟨[], Outcome.tells_nil (c := c.mapBuffer f) fun _ => rfl, fun _ c' hc =>
    ⟨rfl, hc.map (f := (·.mapBuffer f)) fun _ _ => rfl⟩⟩

theorem seq (hp : Echoes pass levels a p p') (hq : Echoes pass levels b q q') :
    Echoes pass levels (a ++ b) (.seq p q) (.seq p' q') := by
  intro c
  obtain ⟨told, tells, same⟩ := hp c
  simp only [run, Outcome.andThen]
  cases herror : (p.run pass (pass.render levels) c).error with
  | none =>
    obtain ⟨told', tells', same'⟩ := hq (p.run pass (pass.render levels) c).context
    have complete := tells.all herror
    refine ⟨told ++ told', ⟨?_, ?_, fun herror' => ?_⟩, fun hanswers c' hc => ?_⟩
    · rw [tells'.offers, tells.offers, List.append_assoc]
    · rw [List.map_append, List.map_append, complete]
      exact (List.prefix_append_right_inj _).2 tells'.beginning
    · rw [List.map_append, List.map_append, complete, tells'.all herror']
    · -- As many tags were offered as the first program has, so each has its own answers.
      have length : told.length = a.length := by simpa using congrArg List.length complete
      obtain ⟨rest, hrest⟩ := hanswers
      rw [List.append_assoc] at hrest
      obtain ⟨rfl, hbehind⟩ := List.append_inj hrest length
      have first := same (List.prefix_refl told) c' hc
      rw [first.error, herror]
      exact same' ⟨rest, hbehind⟩ _ first.context
  | some error =>
    refine ⟨told, ⟨tells.offers, ?_, fun h => ?_⟩, fun hanswers c' hc => ?_⟩
    · rw [List.map_append]
      exact tells.beginning.trans (List.prefix_append _ _)
    · rw [herror] at h
      cases h
    · have length : told.length ≤ a.length := by simpa using tells.beginning.length_le
      have own := List.prefix_of_prefix_length_le hanswers (List.prefix_append a b) length
      have first := same own c' hc
      rw [first.error, herror]
      exact first

theorem wrap (w : Wrapper) (hp : Echoes pass levels a p p') :
    Echoes pass levels a (w.around p) (w.around p') := by
  intro c
  obtain ⟨told, tells, same⟩ := hp (w.enter c)
  have entered : (w.enter c).offers = c.offers := by cases w <;> rfl
  rw [entered] at tells
  simp only [w.run_around]
  refine ⟨told, tells.mapContext fun d => by cases w <;> rfl, fun hanswers c' hc => ?_⟩
  have leave : w.leave c' = w.leave c := by
    obtain ⟨offers, rfl⟩ := hc
    cases w <;> rfl
  rw [leave]
  exact (same hanswers _ (hc.map fun d offers => by cases w <;> rfl)).mapContext
    fun d offers => by cases w <;> rfl

theorem withLast (value : Bool) (hp : Echoes pass levels a p p') :
    Echoes pass levels a (.withLast value p) (.withLast value p') := by
  intro c
  obtain ⟨told, tells, same⟩ := hp { c with last := value }
  refine ⟨told, tells.mapContext fun _ => rfl, fun hanswers c' hc => ?_⟩
  have inside := same hanswers _ (hc.map (f := ({ · with last := value })) fun _ _ => rfl)
  obtain ⟨offers, rfl⟩ := hc
  exact inside.mapContext (f := ({ · with last := c.last })) fun _ _ => rfl

theorem observe {next next' : View → Program}
    (h : ∀ v v' : View, v.Agrees True v' → Echoes pass levels a (next v) (next' v')) :
    Echoes pass levels a (.observe next) (.observe next') := by
  intro c
  obtain ⟨told, tells, same⟩ := h (c.view pass.options) (c.view pass.options)
    ⟨rfl, rfl, fun _ => rfl⟩ c
  refine ⟨told, tells, fun hanswers c' hc => ?_⟩
  have view : c'.view pass.unasked.options = c.view pass.options := by
    obtain ⟨offers, rfl⟩ := hc
    rfl
  rw [run, run, view]
  exact same hanswers c' hc

theorem congruence (pass : Pass) (levels : Nat) : SpanCongruence True (Echoes pass levels) where
  maps := maps
  seq := seq
  wrap w _ := wrap w
  span style := wrap (.span style)
  withLast h hp := by
    rw [h trivial]
    exact withLast _ hp
  observe := observe

/-- A node whose program echoes that of another one is rendered like it. -/
theorem render (hrules : pass.rules = .standard) {node node' : Node}
    (hname : node.customName? = none) (hname' : node'.customName? = none)
    (h : ∀ k, levels = k + 1 → Echoes pass k a node.program node'.program) :
    Echoes pass levels a (.render node) (.render node') := by
  intro c
  have hrule := Pass.find?_of_standard hrules hname
  have hrule' : pass.unasked.rules.find? node' = _ := Pass.find?_of_standard hrules hname'
  have depth {c' : Context} (hc : c.Beside c') : c'.depth = c.depth := by
    obtain ⟨offers, rfl⟩ := hc
    rfl
  simp only [run]
  rcases pass.stuck_or_shallow levels c with stuck | ⟨k, rfl, shallow⟩
  · rw [Pass.render_of_stuck hrule stuck]
    refine ⟨[], Outcome.tells_nil (c := c) (by simp), fun _ c' hc => ?_⟩
    have stuck' : pass.unasked.Stuck levels c' := stuck.imp_left (depth hc ▸ ·)
    rw [Pass.render_of_stuck hrule' stuck']
    exact ⟨rfl, hc⟩
  · obtain ⟨told, tells, same⟩ := h k rfl c.enterNode
    rw [Pass.render_succ hrule shallow, standardRule, if_pos rfl]
    refine ⟨told, tells.mapContext fun _ => rfl, fun hanswers c' hc => ?_⟩
    have shallow' : c'.depth < pass.unasked.options.maxDepth := depth hc ▸ shallow
    rw [Pass.render_succ hrule' shallow', standardRule, if_pos rfl]
    exact (same hanswers _ (hc.map (f := (·.enterNode)) fun _ _ => rfl)).mapContext
      (f := (·.leaveNode)) fun _ _ => rfl

/-- Nodes of extensions are unknown in both passes. -/
theorem custom (hrules : pass.rules = .standard) {node : Node} (hname : node.customName?.isSome) :
    Echoes pass levels [] (.render node) (.render node) := by
  intro c
  have hrule : pass.rules.find? node = none := hrules ▸ RuleSet.find?_standard_of_custom hname
  have hrule' : pass.unasked.rules.find? node = none := hrule
  simp only [run, Pass.render_of_none hrule, Pass.render_of_none hrule']
  refine ⟨[], ⟨?_, List.nil_prefix, fun _ => rfl⟩, fun _ c' hc => ⟨?_, ?_⟩⟩
  · rw [Pass.context_unknown, List.append_nil]
  · rw [Pass.error_unknown, Pass.error_unknown]
    rfl
  · rw [Pass.context_unknown, Pass.context_unknown]
    exact hc

/-- A tag that is handled does what an empty literal does, and one that is not is written. -/
theorem tag (tag : String) (answers : List Bool) :
    Echoes pass levels (choices [tag] answers) (Inline.htmlInline tag).program
      ((Inline.htmlInline tag).answered answers).program := by
  intro c
  have hrun : (Inline.htmlInline tag).program.run pass (pass.render levels) c = _ :=
    pass.run_tag tag (pass.render levels) c
  rw [hrun]
  refine ⟨[(tag, pass.handles c tag)], ⟨rfl, List.prefix_refl _, fun _ => rfl⟩,
    fun hanswers c' hc => ?_⟩
  have answer : answers.headD false = pass.handles c tag := by
    obtain ⟨heq, -⟩ := List.cons_prefix_cons.1 hanswers
    exact (congrArg (·.2) heq).symm
  rw [Inline.answered, answer]
  cases pass.handles c tag with
  | true =>
    have unwritten : (Inline.literal "").program.run pass.unasked (pass.unasked.render levels) c' =
        c'.ok := by
      simp [Inline.program, run, Context.mapBuffer, Buffer.write]
    obtain ⟨offers, rfl⟩ := hc
    exact ⟨congrArg (·.error) unwritten, offers, congrArg (·.context) unwritten⟩
  | false =>
    have written : (Inline.htmlInline tag).program.run pass.unasked (pass.unasked.render levels)
        c' = ((c'.offer tag false).mapBuffer (·.write tag)).ok :=
      pass.unasked.run_tag tag (pass.unasked.render levels) c'
    obtain ⟨offers, rfl⟩ := hc
    exact ⟨congrArg (·.error) written, _, congrArg (·.context) written⟩

section Lists

variable (ih : ∀ (node : Node) (answers : List Bool),
  Echoes pass levels (choices node.tags answers) (.render node) (.render (node.answered answers)))

include ih

theorem inlines (is : List Inline) (answers : List Bool) :
    Echoes pass levels (choices (Inline.listTags is) answers) (.inlines is)
      (.inlines (Inline.listAnswered is answers)) := by
  induction is generalizing answers with
  | nil => exact maps .done
  | cons i rest ih_rest =>
    rw [Inline.listTags, choices_append]
    exact (congruence pass levels).inlines_cons (ih (.inline i) answers) (ih_rest _)

theorem blocks (bs : List Block) (answers : List Bool) :
    Echoes pass levels (choices (Block.listTags bs) answers) (.blocks bs)
      (.blocks (Block.listAnswered bs answers)) := by
  induction bs generalizing answers with
  | nil => exact maps .done
  | cons b rest ih_rest =>
    have last (answers : List Bool) : (Block.listAnswered rest answers).isEmpty = rest.isEmpty := by
      cases rest <;> rfl
    rw [Block.listTags, choices_append]
    exact (congruence pass levels).blocks_cons (fun _ => last _) (ih (.block b) answers) (ih_rest _)

theorem items (style : ListStyle) (index : Nat) (entries : List ListItem) (answers : List Bool) :
    Echoes pass levels (choices (Block.itemsTags entries) answers) (.items style index entries)
      (.items style index (Block.itemsAnswered entries answers)) := by
  induction entries generalizing index answers with
  | nil => exact maps .done
  | cons item rest ih_rest =>
    obtain ⟨children, trivia⟩ := item
    have last (answers : List Bool) :
        (Block.itemsAnswered rest answers).isEmpty = rest.isEmpty := by
      cases rest with
      | nil => rfl
      | cons item more => cases item; rfl
    rw [Block.itemsTags, choices_append]
    exact (congruence pass levels).items_cons rfl (last _) (ih (.item ⟨children, trivia⟩) answers)
      (ih_rest _ _)

theorem inlineProgram (i : Inline) (answers : List Bool) :
    Echoes pass levels (choices i.tags answers) i.program (i.answered answers).program := by
  have C := congruence pass levels
  cases i with
  | emphasis mark count children => exact C.emphasis mark count (inlines ih children answers)
  | link url title isImage children =>
    exact C.link url title isImage (inlines ih children answers)
  | delimiter text children => exact C.delimiter text (inlines ih children answers)
  | htmlInline t => exact tag t answers
  | literal | codeSpan | autolink | lineBreak | htmlEntity | custom => exact C.leafInline trivial

theorem blockProgram (b : Block) (answers : List Bool) :
    Echoes pass levels (choices b.tags answers) b.program (b.answered answers).program := by
  have C := congruence pass levels
  cases b with
  | paragraph content trivia => exact C.paragraph (.inl trivial) (inlines ih content answers)
  | heading level content newline trivia =>
    exact C.heading level newline (.inl trivial) (inlines ih content answers)
  | list style entries trivia =>
    exact C.list style (.inl trivial) (items ih style _ entries answers)
  | quote recorded children trivia =>
    cases children with
    | nil => exact C.emptyQuote recorded trivia
    | cons b rest =>
      exact C.quote recorded (.inl trivial) (List.cons_ne_nil _ _) (List.cons_ne_nil _ _)
        (blocks ih (b :: rest) answers)
  | linkDefinitionGroup definitions trivia =>
    have group := blocks ih (definitions.map .linkDefinition) answers
    rw [Block.listTags_linkDefinitions, Block.listAnswered_linkDefinitions] at group
    exact C.linkDefinitionGroup (.inl trivial) group
  | codeBlock | thematicBreak | htmlBlock | linkDefinition | emptyBlock | custom =>
    exact C.leafBlock trivial (.inl trivial)

/-- **The rule of a node and of the node with its tags answered agree if those of its parts do.** -/
theorem program (node : Node) (answers : List Bool) :
    Echoes pass levels (choices node.tags answers) node.program
      (node.answered answers).program := by
  cases node with
  | document d => exact blocks ih d.blocks answers
  | block b => exact blockProgram ih b answers
  | item i => exact (congruence pass levels).item rfl (blocks ih i.children answers)
  | inline i => exact inlineProgram ih i answers

end Lists

end Echoes

end Program

/-! ### Filters -/

namespace MarkupFilter

/-- How many tags a new filter has stripped once it was offered these. -/
def stripped (filter : MarkupFilter) (tags : List String) : Nat :=
  ((filter.strippedCounts 0 tags).getLast?.map (·.2)).getD 0

theorem getLast?_strippedCounts (filter : MarkupFilter) (consumed : Nat) (tags : List String) :
    ((filter.strippedCounts consumed tags).getLast?.map (·.2)).getD consumed =
      consumed + tags.countP filter.strips := by
  induction tags generalizing consumed with
  | nil => rfl
  | cons tag rest ih =>
    have counted := ih (if filter.strips tag then consumed + 1 else consumed)
    have last : ((filter.strippedCounts consumed (tag :: rest)).getLast?.map (·.2)).getD consumed =
        ((filter.strippedCounts (if filter.strips tag then consumed + 1 else consumed)
          rest).getLast?.map (·.2)).getD
            (if filter.strips tag then consumed + 1 else consumed) := by
      rw [strippedCounts, List.getLast?_cons]
      cases (filter.strippedCounts _ rest).getLast? <;> rfl
    rw [last, counted, List.countP_cons]
    split <;> omega

/-- A filter counts the tags that it strips. -/
theorem stripped_eq_countP (filter : MarkupFilter) (tags : List String) :
    filter.stripped tags = tags.countP filter.strips := by
  rw [stripped, getLast?_strippedCounts, Nat.zero_add]

end MarkupFilter

/-! ### Documents -/

/-- A pass that ends in either has the same result. -/
theorem Outcome.Beside.result {o o' : Outcome} (h : o.Beside o') : o'.result = o.result := by
  obtain ⟨herror, offers, hcontext⟩ := h
  rw [Outcome.result, Outcome.result, herror, hcontext]
  rfl

/-- A pass with output has met no error. -/
theorem Outcome.error_of_result {o : Outcome} {text : RichText} (h : o.result = .ok text) :
    o.error = none := by
  rw [result] at h
  split at h
  · cases h
  · assumption

namespace Pass

variable {pass : Pass}

/-- A filter answers each tag by itself. -/
theorem replies_of_filter {filter : MarkupFilter}
    (h : pass.interceptor = some filter.interceptor) (prior tags : List String) :
    pass.replies prior tags = tags.map fun tag => (tag, filter.strips tag) := by
  induction tags generalizing prior with
  | nil => rfl
  | cons tag rest ih =>
    rw [replies, ih, h]
    rfl

/-- **A node is rendered like the node with its tags answered without interceptor.** -/
theorem echoes_render (hrules : pass.rules = .standard) (levels : Nat) (node : Node)
    (answers : List Bool) :
    Program.Echoes pass levels (choices node.tags answers) (.render node)
      (.render (node.answered answers)) := by
  induction levels using Nat.strongRecOn generalizing node answers with
  | ind levels ih =>
    cases hname : node.customName? with
    | some name =>
      have custom : node.customName?.isSome := by rw [hname]; rfl
      obtain ⟨tags, answered⟩ := Node.answered_of_custom custom answers
      rw [tags, answered]
      exact .custom hrules custom
    | none =>
      refine .render hrules hname ((node.customName?_answered answers).trans hname) fun k hk => ?_
      subst hk
      exact .program (ih k (Nat.lt_succ_self k)) node answers

/-- **Intercepting a tag is the same as deleting it.** Whatever the options and the interceptor are,
a pass with the standard rules offers the interceptor the raw tags that it reaches, that is, those
of the nodes visited before the first one that is unknown or too deep, each once and in document
order. Its result, be it an error or a text with spans, is that of the pass without interceptor on the
document in which the tags answered with `true` are empty literals. A successful pass offers all the
raw inline tags outside the nodes of extensions, and a filter counts the tags answered with
`true`. -/
theorem run_intercepted (options : RenderOptions) (interceptor : Interceptor)
    (document : Document) :
    let pass : Pass := { rules := .standard, options, interceptor := some interceptor }
    let r := pass.run document
    r.offers = pass.replies []
        (pass.reached ((Node.document document).visits (pass.enters []) 1)) ∧
      r.result = (({ rules := .standard, options } : Pass).run
        (document.answered (r.offers.map (·.2)))).result ∧
      (∀ text, r.result = .ok text → r.offers.map (·.1) = document.tags) ∧
      ∀ filter : MarkupFilter, interceptor = filter.interceptor →
        filter.stripped (r.offers.map (·.1)) = (r.offers.map (·.2)).count true := by
  intro pass r
  let o := pass.outcome document
  have hrules : pass.rules = .standard := rfl
  have offers : o.context.offers = _ :=
    (asks_render hrules (Nat.add_comm 1 _) (.document document) (.start options)
      (Nat.zero_add _)).2
  have echoes (answers : List Bool) := echoes_render hrules options.maxDepth (.document document)
    answers (.start options)
  refine ⟨offers, ?_, fun text hok => ?_, ?_⟩
  · obtain ⟨told, tells, same⟩ := echoes (o.context.offers.map (·.2))
    obtain rfl : o.context.offers = told := tells.offers
    have beginning := tells.beginning
    rw [map_fst_choices] at beginning
    exact (same (prefix_choices beginning) (.start options) ⟨[], rfl⟩).result.symm
  · obtain ⟨told, tells, -⟩ := echoes []
    obtain rfl : o.context.offers = told := tells.offers
    have all := tells.all (Outcome.error_of_result hok)
    rwa [map_fst_choices] at all
  · rintro filter rfl
    have filtered : pass.interceptor = some filter.interceptor := rfl
    have answers : r.offers = _ := offers.trans (replies_of_filter filtered _ _)
    rw [MarkupFilter.stripped_eq_countP, answers, List.count, List.map_map, List.map_map,
      List.countP_map, List.countP_map]
    congr 1
    funext tag
    simp

/-- An interceptor that handles every second tag it is offered. The tags stand at the start of the
lines of a quote, inside a span and behind a node of an extension; the last one is too deep. -/
theorem run_intercepted_alternating :
    let interceptor : Interceptor := ⟨fun offered _ => offered.length % 2 == 0⟩
    let blocks : List Block := [.quote [.marked .lf, .marked .absent]
      [.paragraph [.htmlInline "<i>", .lineBreak .lf false,
        .emphasis '*' 1 [.htmlInline "<b>", .htmlInline "</b>", .literal "x"],
        .custom "math" "y" [.htmlInline "<u>"], .htmlInline "</i>"] {}] {}]
    let deeper : Block :=
      .quote [] [.paragraph [.emphasis '_' 1 [.delimiter "*" [.htmlInline "<s>"]]] {}] {}
    let options : RenderOptions := { maxDepth := 5, unknownNodes := .skip }
    let pass : Pass := { rules := .standard, options, interceptor := some interceptor }
    let offers := [("<i>", true), ("<b>", false), ("</b>", true), ("</i>", false)]
    (pass.run ⟨blocks⟩).offers = offers ∧ (Document.mk blocks).tags = offers.map (·.1) ∧
      (pass.run ⟨blocks⟩).result = .ok ⟨"> \n> <b>x</i>", [⟨5, 4, { kind := .bold }⟩], .utf16⟩ ∧
      (pass.run ⟨blocks ++ [deeper]⟩).offers = offers ∧
      (({ rules := .standard, options } : Pass).run
        ((Document.mk (blocks ++ [deeper])).answered (offers.map (·.2)))).result =
          .error (.depthLimit 5) := by
  intro interceptor blocks deeper options pass offers
  have asked : (pass.run ⟨blocks⟩).offers = offers := by decide
  have result : (pass.run ⟨blocks⟩).result =
      .ok ⟨"> \n> <b>x</i>", [⟨5, 4, { kind := .bold }⟩], .utf16⟩ := by decide
  have asked' : (pass.run ⟨blocks ++ [deeper]⟩).offers = offers := by decide
  obtain ⟨-, -, all, -⟩ := run_intercepted options interceptor ⟨blocks⟩
  obtain ⟨-, same, -, -⟩ := run_intercepted options interceptor ⟨blocks ++ [deeper]⟩
  refine ⟨asked, (all _ result).symm.trans (congrArg _ asked), result, asked', ?_⟩
  rw [asked'] at same
  exact same.symm.trans (by decide)

end Pass

end MarkdownSpans
