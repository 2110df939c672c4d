import MarkdownSpans.Proofs.Document.Restyled
import MarkdownSpans.Proofs.Render.Congruence
import MarkdownSpans.Proofs.Render.Respanned
import MarkdownSpans.Proofs.Render.StyledSpans

/-!
# Styling never changes the text

A document in which some emphasis gets a delimiter without a style is rendered to the same text, or
fails by the same error, and loses the spans of this emphasis and no other (`Pass.run_restyled`).

A span writes the pending leads before anything in it is rendered. If something is written in it
anyway, they are only written a little earlier (`Program.Catches`). What comes behind the span does
not look at the spans recorded so far, so that the two runs go on side by side (`Program.Sheds`).
-/

namespace MarkdownSpans

/-! ### Leads that are written a little earlier -/

/-- Write the pending leads. -/
def Context.flush (c : Context) : Context := c.mapBuffer (·.flushIndent)

/-- To open a span writes the pending leads. -/
theorem Context.openSpan_flush (c : Context) (style : SpanStyle) :
    c.flush.openSpan style = c.openSpan style := by
  rw [openSpan, openSpan, flush, mapBuffer, Buffer.flushIndent_flushIndent]

namespace Program

variable {pass : Pass} {levels : Nat} {p q : Program} {a b : String}

/-- The program opens the same spans whether or not the pending leads were written before. If it
writes a text, it ends in the same state; otherwise the leads may still be pending in the end. -/
structure Catches (pass : Pass) (levels : Nat) (p : Program) (text : String) : Prop where
  extents (c : Context) : p.extents pass (pass.render levels) (pass.extents levels) c.flush =
    p.extents pass (pass.render levels) (pass.extents levels) c
  run (c : Context) :
    p.run pass (pass.render levels) c.flush = p.run pass (pass.render levels) c ∨
      p.run pass (pass.render levels) c.flush =
          (p.run pass (pass.render levels) c).mapContext .flush ∧
        ((p.run pass (pass.render levels) c).error = none → text = "")

namespace Catches

/-- A program that writes nothing leaves the leads pending. -/
theorem done : Catches pass levels .done "" :=
  ⟨fun _ => rfl, fun _ => .inr ⟨rfl, fun _ => rfl⟩⟩

theorem write (text : String) : Catches pass levels (.write text) text := by
  refine ⟨fun _ => rfl, fun c => ?_⟩
  by_cases h : text = ""
  · subst h
    exact .inr ⟨rfl, fun _ => rfl⟩
  · left
    simp only [Program.run, Context.flush, Context.mapBuffer, Buffer.write_flushIndent _ h]

/-- A terminator is written behind the leads, even an absent one. -/
theorem writeLine (newline : Newline) : Catches pass levels (.writeLine newline) newline.text := by
  refine ⟨fun _ => rfl, fun c => .inl ?_⟩
  simp only [Program.run, Context.flush, Context.mapBuffer, Buffer.writeLine_flushIndent]

theorem span (style : SpanStyle) : Catches pass levels (.span style p) a := by
  constructor
  · intro c
    rw [Program.extents, Program.extents, Context.openSpan_flush]
  · intro c
    left
    rw [Program.run, Program.run, Context.openSpan_flush]
    rfl

theorem error (hp : Catches pass levels p a) (c : Context) :
    (p.run pass (pass.render levels) c.flush).error =
      (p.run pass (pass.render levels) c).error := by
  rcases hp.run c with same | ⟨flushed, -⟩
  · rw [same]
  · rw [flushed]
    rfl

/-- A program that writes a text ends in the same state. -/
theorem run_flush (hp : Catches pass levels p a) (ha : a ≠ "") {c : Context}
    (success : (p.run pass (pass.render levels) c).error = none) :
    p.run pass (pass.render levels) c.flush = p.run pass (pass.render levels) c :=
  (hp.run c).resolve_right fun flushed => ha (flushed.2 success)

theorem seq (hp : Catches pass levels p a) (hq : Catches pass levels q b) :
    Catches pass levels (.seq p q) (a ++ b) := by
  constructor
  · intro c
    simp only [Program.extents, hp.extents c]
    rcases hp.run c with same | ⟨flushed, -⟩
    · rw [same]
    · rw [flushed]
      cases herror : (p.run pass (pass.render levels) c).error with
      | none => simp only [Outcome.mapContext, herror, hq.extents]
      | some error => simp only [Outcome.mapContext, herror]
  · intro c
    rcases hp.run c with same | ⟨flushed, empty⟩
    · left
      rw [Program.run, Program.run, same]
    · simp only [Program.run, flushed, Outcome.andThen, Outcome.mapContext]
      cases herror : (p.run pass (pass.render levels) c).error with
      | none =>
        -- The first program wrote nothing, so it is up to the second one.
        rw [empty herror, String.empty_append]
        exact hq.run _
      | some error => exact .inr ⟨by simp only [herror], fun h => by simp [herror] at h⟩

/-- Without an interceptor no tag is handled. -/
theorem intercept {tag : String} {next : Bool → Program} (hinterceptor : pass.interceptor = none)
    (h : Catches pass levels (next false) a) : Catches pass levels (.intercept tag next) a := by
  have unhandled (c : Context) : pass.handles c tag = false := by
    simp [Pass.handles, hinterceptor]
  constructor
  · intro c
    simp only [Program.extents, unhandled]
    exact h.extents (c.offer tag false)
  · intro c
    simp only [Program.run, unhandled]
    exact h.run (c.offer tag false)

/-- Inlines one after another, given each of them. -/
theorem inlines (h : ∀ i : Inline, Catches pass levels (.render (.inline i)) i.text)
    (is : List Inline) : Catches pass levels (.inlines is) (Inline.listText is) := by
  induction is with
  | nil => exact done
  | cons i rest ih =>
    rw [Inline.listText]
    exact (h i).seq ih

/-- The standard rule of an inline, given those inside it. -/
theorem inlineProgram (hinterceptor : pass.interceptor = none)
    (h : ∀ i : Inline, Catches pass levels (.render (.inline i)) i.text) (i : Inline) :
    Catches pass levels i.program i.text := by
  cases i with
  | literal content => exact write content
  | emphasis mark count children =>
    simp only [Inline.program]
    split
    · exact span _
    · exact inlines h children
  | codeSpan content => exact span _
  | autolink url isEmail => exact span _
  | link url title isImage children => exact span _
  | lineBreak newline hard => exact writeLine newline
  | htmlInline tag => exact intercept hinterceptor (write tag)
  | htmlEntity spelling decoded => exact write spelling
  | delimiter text children => exact (write text).seq (inlines h children)
  | custom kind content children => exact done

end Catches

/-- **An inline with a text writes the pending leads by itself.** -/
theorem catches_inline (hrules : pass.rules = .standard) (hinterceptor : pass.interceptor = none)
    (i : Inline) : Catches pass levels (.render (.inline i)) i.text := by
  induction levels using Nat.strongRecOn generalizing i with
  | ind levels ih =>
    have alike (c : Context) := pass.render_alike levels (.inline i) c c.flush rfl
    have standard {rule : Rule} (hrule : pass.rules.find? (.inline i) = some rule) :
        rule (.inline i) = i.program :=
      RuleSet.followsStandard_standard _ rule (hrules ▸ hrule)
    constructor
    · intro c
      rw [extents, extents]
      rcases alike c with ⟨error, -, -, hc, hc', -⟩ | ⟨k, rule, rfl, hrule, unfolded⟩
      · rw [hc, hc']
      · have inside := Catches.inlineProgram hinterceptor (ih k (Nat.lt_succ_self k)) i
        rw [(unfolded c (.head _)).2, (unfolded c.flush (.tail _ (.head _))).2, standard hrule]
        exact inside.extents c.enterNode
    · intro c
      rw [run, run]
      rcases alike c with ⟨error, hc, hc', -, -, hrule⟩ | ⟨k, rule, rfl, hrule, unfolded⟩
      · right
        rw [hc, hc']
        refine ⟨rfl, fun success => Inline.text_of_custom fun hname => ?_⟩
        have known := Pass.find?_of_standard hrules hname
        rw [hrule success] at known
        cases known
      · have inside := Catches.inlineProgram hinterceptor (ih k (Nat.lt_succ_self k)) i
        rw [(unfolded c (.head _)).1, (unfolded c.flush (.tail _ (.head _))).1, standard hrule]
        rcases inside.run c.enterNode with same | ⟨flushed, empty⟩
        · left
          exact congrArg (·.mapContext Context.leaveNode) same
        · right
          exact ⟨congrArg (·.mapContext Context.leaveNode) flushed, empty⟩

end Program

/-! ### Runs that open fewer spans -/

/-- The second outcome has the error of the first. If there is none, its state differs in the
recorded spans at most, and the spans that were opened are the first ones without those whose entry
is `false`. -/
structure Outcome.Sheds (kept : List Bool) (es es' : List SpanExtent) (o o' : Outcome) : Prop where
  error : o'.error = o.error
  context : o.error = none → o.context.Respanned o'.context
  extents : o.error = none → Thinned kept es es'

theorem Outcome.Sheds.mapContext {kept : List Bool} {es es' : List SpanExtent} {o o' : Outcome}
    {f : Context → Context} (h : Sheds kept es es' o o')
    (hf : ∀ (d : Context) (spans : SpanTracker), f { d with spans } = { f d with spans }) :
    Sheds kept es es' (o.mapContext f) (o'.mapContext f) :=
  ⟨h.error, fun success => (h.context success).map hf, h.extents⟩

/-- Where both runs fail, nothing is said of their spans. -/
theorem Outcome.sheds_failed (kept : List Bool) (es es' : List SpanExtent) (c : Context)
    (error : RenderError) : Sheds kept es es' (c.failed error) (c.failed error) := by
  refine ⟨rfl, fun success => ?_, fun success => ?_⟩
  · cases success
  · cases success

/-- Rules that only write open no span. -/
theorem Program.MapsBuffer.extents_eq_nil {p : Program} (h : p.MapsBuffer) (pass : Pass)
    (levels : Nat) (c : Context) :
    p.extents pass (pass.render levels) (pass.extents levels) c = [] := by
  obtain ⟨f, hf⟩ := h
  have passage : Passage c (p.extents pass (pass.render levels) (pass.extents levels) c)
      (p.run pass (pass.render levels) c).context := p.passage_run (pass.passage_render levels) c
  rw [hf] at passage
  have none : (p.extents pass (pass.render levels) (pass.extents levels) c).map
      SpanExtent.tracked = [] := List.append_right_eq_self.1 passage.spans.symm
  exact List.map_eq_nil_iff.1 none

namespace Program

/-- From each context the second program does what the first does, but for some of the spans. -/
def Sheds (pass : Pass) (levels : Nat) (kept : List Bool) (p p' : Program) : Prop :=
  ∀ c : Context, Outcome.Sheds kept
    (p.extents pass (pass.render levels) (pass.extents levels) c)
    (p'.extents pass (pass.render levels) (pass.extents levels) c)
    (p.run pass (pass.render levels) c) (p'.run pass (pass.render levels) c)

namespace Sheds

variable {pass : Pass} {levels : Nat} {kept kept' : List Bool} {p p' q q' : Program}

theorem maps (h : p.MapsBuffer) : Sheds pass levels [] p p := by
  intro c
  refine ⟨rfl, fun _ => .refl _, fun _ => ?_⟩
  rw [h.extents_eq_nil]
  exact .nil

theorem seq (hp : Sheds pass levels kept p p') (hq : Sheds pass levels kept' q q') :
    Sheds pass levels (kept ++ kept') (.seq p q) (.seq p' q') := by
  intro c
  have first := hp c
  simp only [run, extents, Outcome.andThen, first.error]
  cases herror : (p.run pass (pass.render levels) c).error with
  | none =>
    -- The second programs start in contexts that differ in the recorded spans.
    have second := hq (p.run pass (pass.render levels) c).context
    obtain ⟨same, hextents⟩ := q'.respanned_run (pass.respanned_render levels)
      (first.context herror)
    refine ⟨same.error.trans second.error, fun success => ?_, fun success => ?_⟩
    · exact (second.context success).trans same.context
    · simp only [hextents]
      exact (first.extents herror).append (second.extents success)
  | some error =>
    have failed {P : Prop} (success : (p.run pass (pass.render levels) c).error = none) : P := by
      rw [herror] at success
      cases success
    exact ⟨first.error, failed, failed⟩

theorem wrap (w : Wrapper) (hw : w.opensSpan = false) (hp : Sheds pass levels kept p p') :
    Sheds pass levels kept (w.around p) (w.around p') := by
  intro c
  cases w with
  | span => cases hw
  | indent i => exact (hp (c.mapBuffer (·.pushIndent i))).mapContext fun _ _ => rfl
  | withCompact value =>
    exact (hp { c with compact := value }).mapContext (f := ({ · with compact := c.compact }))
      fun _ _ => rfl

theorem withLast (value : Bool) (hp : Sheds pass levels kept p p') :
    Sheds pass levels kept (.withLast value p) (.withLast value p') := by
  intro c
  exact (hp { c with last := value }).mapContext (f := ({ · with last := c.last })) fun _ _ => rfl

theorem congruence (pass : Pass) (levels : Nat) : Congruence True (Sheds pass levels) where
  maps := maps
  seq := seq
  wrap := wrap
  withLast h hp := by
    rw [h trivial]
    exact withLast _ hp
  observe h c := h (c.view pass.options) _ ⟨rfl, rfl, fun _ => rfl⟩ c

/-- A span that stays. -/
theorem span (style : SpanStyle) (hp : Sheds pass levels kept p p') :
    Sheds pass levels (true :: kept) (.span style p) (.span style p') := by
  intro c
  have inside := hp (c.openSpan style)
  refine ⟨inside.error, fun success => (inside.context success).closeSpan _ _, fun success => ?_⟩
  rw [extents, extents, (inside.context success).buffer]
  exact (inside.extents success).keep

/-- A span that is left out, where something is written in it. -/
theorem unspan {text : String} (style : SpanStyle) (hp : Sheds pass levels kept p p')
    (hcatches : Catches pass levels p text) (htext : text ≠ "") :
    Sheds pass levels (false :: kept) (.span style p) p' := by
  intro c
  have plain := hp c
  -- Inside the span the leads are written and there is one more span, neither of which matters.
  have entered : c.flush.Respanned (c.openSpan style) := ⟨_, rfl⟩
  obtain ⟨inside, hextents⟩ := p.respanned_run (pass.respanned_render levels) entered
  have error : (p.run pass (pass.render levels) (c.openSpan style)).error =
      (p.run pass (pass.render levels) c).error := inside.error.trans (hcatches.error c)
  refine ⟨plain.error.trans error.symm, fun success => ?_, fun success => ?_⟩
  · have success := error.symm.trans success
    have written := inside.context
    rw [hcatches.run_flush htext success] at written
    exact (written.trans (.close _ _)).symm.trans (plain.context success)
  · have success := error.symm.trans success
    rw [extents, hextents, hcatches.extents]
    exact (plain.extents success).drop

/-- A program stays as it is, with the spans of the marks that it draws. -/
theorem of_draws {ms : List Mark} (h : Draws pass levels p ms) :
    Sheds pass levels (ms.map fun _ => true) p p := by
  intro c
  refine ⟨rfl, fun _ => .refl _, fun success => ?_⟩
  have length := (h c success).length_eq
  exact .all (by rw [length, List.length_map]) (by simp)

/-- A node of a built-in kind is rendered by its standard rule. -/
theorem render (hrules : pass.rules = .standard) {node node' : Node}
    (hname : node.customName? = none) (hname' : node'.customName? = none)
    (h : ∀ k, levels = k + 1 → Sheds pass k kept node.program node'.program) :
    Sheds pass levels kept (.render node) (.render node') := by
  intro c
  have hrule := Pass.find?_of_standard hrules hname
  have hrule' := Pass.find?_of_standard hrules hname'
  simp only [run, extents]
  rcases pass.stuck_or_shallow levels c with stuck | ⟨k, rfl, shallow⟩
  · rw [Pass.render_of_stuck hrule stuck, Pass.render_of_stuck hrule' stuck]
    exact Outcome.sheds_failed _ _ _ _ _
  · rw [Pass.render_standard hrules hname shallow, Pass.render_standard hrules hname' shallow,
      Pass.extents_succ hrule shallow, Pass.extents_succ hrule' shallow, standardRule,
      standardRule, if_pos rfl, if_pos rfl]
    exact (h k rfl c.enterNode).mapContext fun _ _ => rfl

/-- A node of an extension is unknown by its name, whatever stands in it. -/
theorem custom (hrules : pass.rules = .standard) {node node' : Node}
    (hname : node.customName?.isSome) (hname' : node'.customName? = node.customName?) :
    Sheds pass levels [] (.render node) (.render node') := by
  intro c
  obtain ⟨name, hsome⟩ := Option.isSome_iff_exists.1 hname
  have hrule : pass.rules.find? node = none := hrules ▸ RuleSet.find?_standard_of_custom hname
  have hrule' : pass.rules.find? node' = none :=
    hrules ▸ RuleSet.find?_standard_of_custom (hname' ▸ hname)
  have error : pass.unknownError? node' = pass.unknownError? node := by
    rw [Pass.unknownError?, Pass.unknownError?, Node.kindName, Node.kindName, hname', hsome]
    rfl
  simp only [run, extents, Pass.render_of_none hrule, Pass.render_of_none hrule',
    Pass.extents_of_none hrule, Pass.extents_of_none hrule', Pass.unknown_eq, error]
  exact ⟨rfl, fun _ => .refl c, fun _ => .nil⟩

/-! ### Standard rules -/

section Rules

variable (h : ∀ (node node' : Node) (kept : List Bool), node.Restyled kept node' →
  Sheds pass levels kept (.render node) (.render node'))

include h

theorem inlines {is is' : List Inline} (his : Each Inline.Restyled is kept is') :
    Sheds pass levels kept (.inlines is) (.inlines is') := by
  induction his with
  | nil => exact maps .done
  | cons first _ ih => exact (congruence pass levels).inlines_cons (h _ _ _ (.inline first)) ih

theorem blocks {bs bs' : List Block} (hbs : Each Block.Restyled bs kept bs') :
    Sheds pass levels kept (.blocks bs) (.blocks bs') := by
  induction hbs with
  | nil => exact maps .done
  | cons first rest ih =>
    refine (congruence pass levels).blocks_cons (fun _ => ?_) (h _ _ _ (.block first)) ih
    exact rest.isEmpty_eq

theorem items (style : ListStyle) (index : Nat) {entries entries' : List ListItem}
    (hentries : Each ListItem.Restyled entries kept entries') :
    Sheds pass levels kept (.items style index entries) (.items style index entries') := by
  induction hentries generalizing index with
  | nil => exact maps .done
  | cons first rest ih =>
    have htrivia := first.trivia
    exact (congruence pass levels).items_cons htrivia rest.isEmpty_eq (h _ _ _ (.item first)) (ih _)

theorem inlineProgram (hinline : ∀ i : Inline, Catches pass levels (.render (.inline i)) i.text)
    (hdraws : ∀ i : Inline, Draws pass levels i.program i.marks) {i i' : Inline}
    (hi : i.Restyled kept i') : Sheds pass levels kept i.program i'.program := by
  cases hi with
  | same => exact of_draws (hdraws i)
  | emphasis mark count hchildren =>
    simp only [Inline.program]
    cases emphasisStyle? mark with
    | some kind => exact span _ (inlines h hchildren)
    | none => exact inlines h hchildren
  | unstyled mark count plain text hchildren =>
    simp only [Inline.program, plain]
    cases emphasisStyle? mark with
    | some kind => exact unspan _ (inlines h hchildren) (.inlines hinline _) text
    | none => exact inlines h hchildren
  | link url title isImage hchildren => exact span _ (inlines h hchildren)
  | delimiter text hchildren => exact (congruence pass levels).delimiter text (inlines h hchildren)
  | custom => exact maps .done

theorem blockProgram (hdraws : ∀ b : Block, Draws pass levels b.program b.marks) {b b' : Block}
    (hb : b.Restyled kept b') : Sheds pass levels kept b.program b'.program := by
  have C := congruence pass levels
  cases hb with
  | same => exact of_draws (hdraws b)
  | paragraph trivia hcontent => exact C.paragraph (.inl trivial) (inlines h hcontent)
  | heading level newline trivia hcontent =>
    exact C.heading level newline (.inl trivial) (inlines h hcontent)
  | list style trivia hentries => exact C.list style (.inl trivial) (items h style _ hentries)
  | quote recorded trivia hchildren =>
    cases hchildren with
    | nil => exact C.emptyQuote recorded trivia
    | cons first rest =>
      exact C.quote recorded (.inl trivial) (List.cons_ne_nil _ _) (List.cons_ne_nil _ _)
        (blocks h (.cons first rest))
  | custom => exact maps .done

/-- **The rule of a restyled node does what that of the node does**, but for some of the spans. -/
theorem program (hinline : ∀ i : Inline, Catches pass levels (.render (.inline i)) i.text)
    (hdraws : ∀ node : Node, Draws pass levels node.program node.marks) {node node' : Node}
    (hnode : node.Restyled kept node') : Sheds pass levels kept node.program node'.program := by
  cases hnode with
  | document hd => exact blocks h hd
  | block hb => exact blockProgram h (fun b => hdraws (.block b)) hb
  | item hi =>
    cases hi with
    | mk trivia hchildren => exact (congruence pass levels).item rfl (blocks h hchildren)
  | inline hi => exact inlineProgram h hinline (fun i => hdraws (.inline i)) hi

end Rules

end Sheds

/-- **A restyled node is rendered like the node**, but for some of the spans. -/
theorem sheds_render {pass : Pass} {levels : Nat} (hrules : pass.rules = .standard)
    (hinterceptor : pass.interceptor = none) {node node' : Node} {kept : List Bool}
    (h : node.Restyled kept node') :
    Sheds pass levels kept (.render node) (.render node') := by
  induction levels using Nat.strongRecOn generalizing node node' kept with
  | ind levels ih =>
    cases hname : node.customName? with
    | some name =>
      obtain rfl := h.kept_of_custom (by rw [hname]; nofun)
      exact .custom hrules (by rw [hname]; rfl) h.customName?
    | none =>
      refine .render hrules hname (h.customName?.trans hname) fun k hk => ?_
      subst hk
      have hinline (i : Inline) : Catches pass k (.render (.inline i)) i.text :=
        catches_inline hrules hinterceptor i
      have hdraws (node : Node) : Draws pass k node.program node.marks :=
        .program (draws_render hrules hinterceptor) (writes_inline hrules hinterceptor) node
      exact .program (fun _ _ _ => ih k (Nat.lt_succ_self k)) hinline hdraws h

end Program

/-! ### Documents -/

namespace Pass

/-- **Styling never changes the text.** Let some of the emphasis of a document that has a text get a
delimiter without a style, and render both documents with the standard rules, no interceptor and the
same options. Then both fail by the same error, or they have the same text. In that case the spans
of the first document are those of its styled nodes, and the spans of the second one are just those
of the nodes that have a style still, with the same offset, length and style. -/
theorem run_restyled (options : RenderOptions) {document document' : Document} {kept : List Bool}
    (h : document.Restyled kept document') :
    let pass : Pass := { rules := .standard, options }
    Thinned kept document.marks document'.marks ∧
      ((∃ error, (pass.run document).result = .error error ∧
          (pass.run document').result = .error error) ∨
        ∃ r spans, (pass.run document).result = .ok r ∧
          (pass.run document').result = .ok { r with spans } ∧
          List.Forall₂ (fun s m => s.style = m.style) r.spans document.marks ∧
          Thinned kept r.spans spans) := by
  intro pass
  refine ⟨h.marks, ?_⟩
  have sheds : Outcome.Sheds kept (pass.spanExtents document) (pass.spanExtents document')
      (pass.outcome document) (pass.outcome document') :=
    Program.sheds_render rfl rfl (.document h) (.start options)
  cases herror : (pass.outcome document).error with
  | some error =>
    left
    refine ⟨error, ?_, ?_⟩
    · rw [result_run, herror]
    · rw [result_run, sheds.error, herror]
  | none =>
    right
    have shows : List.Forall₂ (SpanExtent.Shows True) (pass.spanExtents document)
        document.marks := SpanExtent.Shows.mono (fun _ => rfl)
      (Program.draws_render rfl rfl (.document document) (.start options) herror)
    let r : RichText := ⟨(pass.outcome document).context.buffer.text,
      (pass.spanExtents document).map SpanExtent.span, options.unit⟩
    refine ⟨r, (pass.spanExtents document').map SpanExtent.span, ?_, ?_, ?_, ?_⟩
    · rw [result_run, herror]
    · rw [result_run, sheds.error, herror, (sheds.context herror).buffer]
    · exact List.forall₂_map_left_iff.2 (shows.imp fun _ _ shown => shown.style)
    · exact (sheds.extents herror).map SpanExtent.span

/-- Emphasis at the start of lines of a quote and of an item, with other spans in it and behind it.
The bold and the struck text lose their style. -/
theorem run_restyled_nested :
    let document (bold struck : Char) : Document := ⟨[
      .quote [.marked .lf, .marked .lf] [.paragraph [.emphasis bold 2
        [.emphasis '_' 1 [.literal "a"], .lineBreak .lf false, .codeSpan "b"]] {}] {},
      .list {} [.mk [.paragraph [.emphasis struck 2 [.literal "c"],
        .link "/" none false [.literal "d"]] {}] {}] {}]⟩
    let pass : Pass := { rules := .standard }
    let kept := [false, true, true, false, true]
    let text := "> a\n> b\n- cd"
    (document '*' '~').Restyled kept (document '=' '+') ∧
      (pass.run (document '*' '~')).result = .ok ⟨text, [⟨2, 5, { kind := .bold }⟩,
        ⟨2, 1, { kind := .italic }⟩, ⟨6, 1, { kind := .code }⟩, ⟨10, 1, { kind := .strikethrough }⟩,
        ⟨11, 1, { kind := .url, url := some "/" }⟩], .utf16⟩ ∧
      (pass.run (document '=' '+')).result = .ok ⟨text, [⟨2, 1, { kind := .italic }⟩,
        ⟨6, 1, { kind := .code }⟩, ⟨11, 1, { kind := .url, url := some "/" }⟩], .utf16⟩ := by
  intro document pass kept text
  have blocks : Each Block.Restyled (document '*' '~').blocks _ (document '=' '+').blocks :=
    .cons (.quote _ _ (.cons (.paragraph _ (.cons
      (.unstyled '*' 2 rfl (by simp [Inline.listText, Inline.text]) (.cons (.same _)
        (.cons (.same _) (.cons (.same _) .nil)))) .nil)) .nil))
      (.cons (.list _ _ (.cons (.mk _ (.cons (.paragraph _ (.cons
        (.unstyled '~' 2 rfl (by simp [Inline.listText, Inline.text]) (.cons (.same _) .nil))
        (.cons (.same _) .nil))) .nil)) .nil)) .nil)
  have h : (document '*' '~').Restyled kept (document '=' '+') := blocks
  have styled : (pass.run (document '*' '~')).result = .ok ⟨text, [⟨2, 5, { kind := .bold }⟩,
      ⟨2, 1, { kind := .italic }⟩, ⟨6, 1, { kind := .code }⟩, ⟨10, 1, { kind := .strikethrough }⟩,
      ⟨11, 1, { kind := .url, url := some "/" }⟩], .utf16⟩ := by decide
  obtain ⟨-, ⟨error, failed, -⟩ | ⟨r, spans, hr, plain, -, thinned⟩⟩ := run_restyled {} h
  · cases styled.symm.trans failed
  · obtain rfl := Except.ok.inj (styled.symm.trans hr)
    obtain rfl := thinned.eq
    exact ⟨h, styled, plain⟩

/-- Emphasis without a text is another matter: its span writes the lead of a quote. -/
example :
    let document (mark : Char) : Document :=
      ⟨[.quote [.marked .absent] [.paragraph [.emphasis mark 1 []] {}] {}]⟩
    let pass : Pass := { rules := .standard }
    (pass.run (document '*')).result = .ok ⟨"> ", [⟨2, 0, { kind := .bold }⟩], .utf16⟩ ∧
      (pass.run (document '=')).result = .ok ⟨"", [], .utf16⟩ := by
  decide

end Pass

end MarkdownSpans
