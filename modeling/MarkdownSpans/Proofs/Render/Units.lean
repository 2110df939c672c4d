import MarkdownSpans.Proofs.Render.Plain
import MarkdownSpans.Proofs.Render.Spans

/-!
# The unit of a pass

Offsets are counted in the unit of the pass, and nothing else depends on it as long as no rule looks
at the length of the output or at the unit itself. `Program.Blind` says so of a program; the
standard rules are blind. Two runs of a blind program in two units stay alike (`Program.alike_run`),
so that two passes over a document with the standard rules differ in the numbers of their spans
alone (`Pass.result_in_units`).
-/

namespace MarkdownSpans

/-! ### Outputs that differ in their unit -/

namespace Buffer

/-- Two buffers that differ in their unit and the length counted in it at most. -/
structure Alike (b b' : Buffer) : Prop where
  text : b'.text = b.text
  newline : b'.newline = b.newline
  atLineStart : b'.atLineStart = b.atLineStart
  indents : b'.indents = b.indents

namespace Alike

variable {b b' : Buffer}

theorem flushIndent (h : b.Alike b') : b.flushIndent.Alike b'.flushIndent := by
  unfold Buffer.flushIndent
  rw [h.atLineStart, h.indents]
  split
  · exact ⟨by simp [append, pendingLead, h.text, h.indents], h.newline, rfl, rfl⟩
  · exact h

theorem push (h : b.Alike b') (text : String) : (b.push text).Alike (b'.push text) := by
  unfold Buffer.push
  split
  · exact h
  · exact ⟨by simp [append, h.text], h.newline, rfl, h.indents⟩

theorem write (h : b.Alike b') (text : String) : (b.write text).Alike (b'.write text) := by
  unfold Buffer.write
  split
  · exact h
  · exact h.flushIndent.push text

theorem writeChar (h : b.Alike b') (c : Char) : (b.writeChar c).Alike (b'.writeChar c) :=
  h.flushIndent.push _

/-- Both may be set to the start of a line. -/
theorem startLine (h : b.Alike b') :
    ({ b with atLineStart := true } : Buffer).Alike { b' with atLineStart := true } :=
  ⟨h.text, h.newline, rfl, h.indents⟩

theorem writeLine (h : b.Alike b') (newline : Newline) :
    (b.writeLine newline).Alike (b'.writeLine newline) := by
  unfold Buffer.writeLine
  split
  · exact h.flushIndent
  · exact (h.flushIndent.push newline.text).startLine

theorem writeDefaultLine (h : b.Alike b') : b.writeDefaultLine.Alike b'.writeDefaultLine := by
  unfold Buffer.writeDefaultLine
  rw [h.newline]
  exact h.writeLine b.newline

theorem ensureLine (h : b.Alike b') : b.ensureLine.Alike b'.ensureLine := by
  unfold Buffer.ensureLine
  rw [h.atLineStart, h.newline]
  split
  · exact h
  · exact (h.push b.newline.text).startLine

theorem pushIndent (h : b.Alike b') (i : Indent) : (b.pushIndent i).Alike (b'.pushIndent i) :=
  ⟨h.text, h.newline, h.atLineStart, by simp [Buffer.pushIndent, h.indents]⟩

theorem popIndent (h : b.Alike b') : b.popIndent.Alike b'.popIndent :=
  ⟨h.text, h.newline, h.atLineStart, by simp [Buffer.popIndent, h.indents]⟩

end Alike

end Buffer

/-- Two contexts that differ in what is counted in the unit at most. -/
structure Context.Alike (c c' : Context) : Prop where
  buffer : c.buffer.Alike c'.buffer
  compact : c'.compact = c.compact
  last : c'.last = c.last
  depth : c'.depth = c.depth
  offers : c'.offers = c.offers
  notes : c'.notes = c.notes

/-- Two spans of the same style that were opened behind the same text and closed behind the same
text. -/
structure SpanExtent.Alike (e e' : SpanExtent) : Prop where
  style : e'.style = e.style
  opened : e'.opened.text = e.opened.text
  closed : e'.closed.text = e.closed.text

/-- Two outcomes with the same error and contexts that are alike. -/
structure Outcome.Alike (o o' : Outcome) : Prop where
  context : o.context.Alike o'.context
  error : o'.error = o.error

namespace Context.Alike

variable {c c' : Context}

/-- Both outputs may be changed in the same way. -/
theorem mapBuffer {f : Buffer → Buffer} (h : c.Alike c')
    (hf : (f c.buffer).Alike (f c'.buffer)) : (c.mapBuffer f).Alike (c'.mapBuffer f) :=
  ⟨hf, h.compact, h.last, h.depth, h.offers, h.notes⟩

theorem ok (h : c.Alike c') : c.ok.Alike c'.ok := ⟨h, rfl⟩

theorem failed (h : c.Alike c') (error : RenderError) :
    (c.failed error).Alike (c'.failed error) :=
  ⟨h, rfl⟩

end Context.Alike

/-! ### Blind programs -/

namespace Program

/-- The program looks neither at the length of the output nor at the unit. -/
def Blind : Program → Prop
  | seq first second => first.Blind ∧ second.Blind
  | span _ body | indent _ body | withCompact _ body | withLast _ body => body.Blind
  | intercept _ next => ∀ answer, (next answer).Blind
  | observe next => ∀ view, (next view).Blind ∧ next view.unmeasured = next view
  | consult next => ∀ notes, (next notes).Blind
  | attempt body next => body.Blind ∧ ∀ error, (next error).Blind
  | done | fail _ | write _ | writeChar _ | writeLine _ | writeDefaultLine | ensureLine
  | setCompact _ | setLast _ | render _ | note _ => True

theorem Plain.blind {p : Program} (h : p.Plain) : p.Blind := by
  induction p with
  | seq first second ih₁ ih₂ => exact ⟨ih₁ h.1, ih₂ h.2⟩
  | withCompact value body ih => exact ih h
  | withLast value body ih => exact ih h
  | observe next ih => exact fun view => ⟨ih view (h view).1, (h view).2⟩
  | span | indent | intercept | consult | attempt => exact h.elim
  | _ => trivial

namespace Blind

theorem items (style : ListStyle) (index : Nat) (entries : List ListItem) :
    (Program.items style index entries).Blind := by
  induction entries generalizing index with
  | nil => trivial
  | cons item rest ih =>
    exact ⟨trivial, (Plain.marker style index).blind, trivial, (Plain.linesAfter item.trivia).blind,
      (Plain.separator style _).blind, ih _, trivial⟩

theorem list (style : ListStyle) (entries : List ListItem) (trivia : Trivia) :
    (Program.list style entries trivia).Blind :=
  ⟨trivial, ⟨(Plain.linesBefore trivia).blind, items style _ entries⟩,
    (Plain.linesAfter trivia).blind, trivial⟩

theorem quoted {body : Program} (leads : List String) (h : body.Blind) :
    (Program.quoted leads body).Blind := by
  refine fun view => ⟨?_, rfl⟩
  show (if view.atLineStart then Program.indent (.ofLeads leads) body
    else seq (write (Indent.ofLeads leads).lead)
      (.indent (Indent.ofLeads leads).advance body)).Blind
  split
  · exact h
  · exact ⟨trivial, h⟩

theorem quote (recorded : List QuoteLine) (children : List Block) (trivia : Trivia) :
    (Program.quote recorded children trivia).Blind := by
  refine ⟨(Plain.linesBefore trivia).blind, trivial, quoted _ ?_, ?_, trivial⟩
  · split
    · exact (Plain.terminators recorded).blind
    · exact (Plain.blocks children).blind
  · split
    · trivial
    · exact (Plain.linesAfter trivia).blind

theorem codeBlock (content : List Line) (fence : Option Fence) (trivia : Trivia) :
    (Program.codeBlock content fence trivia).Blind :=
  fun _ => ⟨⟨(Plain.linesBefore trivia).blind, trivial, (Plain.lines _).blind,
    (Plain.lines content).blind, (Plain.lines _).blind, trivial, (Plain.linesAfter trivia).blind,
    trivial⟩, rfl⟩

theorem inlineProgram (i : Inline) : i.program.Blind := by
  cases i with
  | emphasis mark count children =>
    simp only [Inline.program]
    split <;> exact (Plain.inlines children).blind
  | link url title isImage children => exact (Plain.inlines children).blind
  | delimiter text children => exact ⟨trivial, (Plain.inlines children).blind⟩
  | htmlInline tag =>
    refine fun handled => ?_
    show (if handled then Program.done else .write tag).Blind
    split <;> trivial
  | literal | codeSpan | autolink | lineBreak | htmlEntity | custom => trivial

theorem blockProgram (b : Block) : b.program.Blind := by
  cases b with
  | paragraph content trivia =>
    exact ⟨(Plain.linesBefore trivia).blind, trivial, (Plain.inlines content).blind,
      (Plain.linesAfter trivia).blind, trivial⟩
  | heading level content newline trivia => exact (Plain.heading level content newline trivia).blind
  | codeBlock content fence trivia => exact codeBlock content fence trivia
  | list style entries trivia => exact list style entries trivia
  | quote recorded children trivia => exact quote recorded children trivia
  | thematicBreak content newline trivia =>
    exact ⟨(Plain.linesBefore trivia).blind, trivial, trivial, (Plain.linesAfter trivia).blind,
      trivial⟩
  | htmlBlock content trivia =>
    exact ⟨(Plain.linesBefore trivia).blind, (Plain.htmlLines content).blind,
      (Plain.linesAfter trivia).blind, trivial⟩
  | linkDefinition d => exact (Plain.linkDefinition d).blind
  | linkDefinitionGroup definitions trivia =>
    exact ⟨(Plain.blocks _).blind, (Plain.linesAfter trivia).blind⟩
  | emptyBlock trivia => exact (Plain.linesAfter trivia).blind
  | custom => trivial

end Blind

/-- **The standard rules are blind.** -/
theorem blind_program (node : Node) : node.program.Blind := by
  cases node with
  | document d => exact (Plain.blocks d.blocks).blind
  | block b => exact .blockProgram b
  | item i => exact ⟨(Plain.linesBefore i.trivia).blind, (Plain.blocks i.children).blind⟩
  | inline i => exact .inlineProgram i

end Program

/-! ### Two runs -/

/-- The pass that counts in another unit. -/
def Pass.inUnit (pass : Pass) (unit : OffsetUnit) : Pass :=
  { pass with options := { pass.options with unit } }

/-- Views of contexts that are alike differ in what is counted in the unit at most. -/
theorem Context.Alike.unmeasured_view {c c' : Context} (h : c.Alike c') (pass : Pass)
    (unit : OffsetUnit) :
    (c'.view (pass.inUnit unit).options).unmeasured = (c.view pass.options).unmeasured := by
  simp [Context.view, View.unmeasured, Pass.inUnit, h.buffer.text, h.buffer.atLineStart,
    h.buffer.indents, h.compact, h.last]

namespace Program

variable {pass : Pass} {unit : OffsetUnit} {renderNode renderNode' : Node → Context → Outcome}
  {nodeExtents nodeExtents' : Node → Context → List SpanExtent}

/-- Runs of a blind program in two units stay alike, with spans that are alike, if those of the
nodes in it do. -/
theorem alike_run
    (hnode : ∀ node c c', c.Alike c' → (renderNode node c).Alike (renderNode' node c') ∧
      List.Forall₂ SpanExtent.Alike (nodeExtents node c) (nodeExtents' node c'))
    {p : Program} (blind : p.Blind) {c c' : Context} (h : c.Alike c') :
    (p.run pass renderNode c).Alike (p.run (pass.inUnit unit) renderNode' c') ∧
      List.Forall₂ SpanExtent.Alike (p.extents pass renderNode nodeExtents c)
        (p.extents (pass.inUnit unit) renderNode' nodeExtents' c') := by
  induction p generalizing c c' with
  | done => exact ⟨h.ok, .nil⟩
  | fail error => exact ⟨h.failed error, .nil⟩
  | seq first second ih₁ ih₂ =>
    obtain ⟨run₁, extents₁⟩ := ih₁ blind.1 h
    simp only [run, extents, Outcome.andThen, run₁.error]
    cases herror : (first.run pass renderNode c).error with
    | some error => exact ⟨run₁, List.rel_append extents₁ .nil⟩
    | none =>
      obtain ⟨run₂, extents₂⟩ := ih₂ blind.2 run₁.context
      exact ⟨run₂, List.rel_append extents₁ extents₂⟩
  | write text => exact ⟨(h.mapBuffer (h.buffer.write text)).ok, .nil⟩
  | writeChar ch => exact ⟨(h.mapBuffer (h.buffer.writeChar ch)).ok, .nil⟩
  | writeLine newline => exact ⟨(h.mapBuffer (h.buffer.writeLine newline)).ok, .nil⟩
  | writeDefaultLine => exact ⟨(h.mapBuffer h.buffer.writeDefaultLine).ok, .nil⟩
  | ensureLine => exact ⟨(h.mapBuffer h.buffer.ensureLine).ok, .nil⟩
  | span style body ih =>
    have entered : (c.openSpan style).Alike (c'.openSpan style) :=
      ⟨h.buffer.flushIndent, h.compact, h.last, h.depth, h.offers, h.notes⟩
    obtain ⟨inside, extents⟩ := ih blind entered
    have closed := inside.context
    exact ⟨⟨⟨closed.buffer, closed.compact, closed.last, closed.depth, closed.offers, closed.notes⟩,
      inside.error⟩, .cons ⟨rfl, entered.buffer.text, closed.buffer.text⟩ extents⟩
  | indent i body ih =>
    have entered : (c.mapBuffer (·.pushIndent i)).Alike (c'.mapBuffer (·.pushIndent i)) :=
      h.mapBuffer (h.buffer.pushIndent i)
    obtain ⟨inside, extents⟩ := ih blind entered
    exact ⟨⟨inside.context.mapBuffer inside.context.buffer.popIndent, inside.error⟩, extents⟩
  | withCompact value body ih =>
    have entered : ({ c with compact := value } : Context).Alike { c' with compact := value } :=
      { h with compact := rfl }
    obtain ⟨inside, extents⟩ := ih blind entered
    exact ⟨⟨{ inside.context with compact := h.compact }, inside.error⟩, extents⟩
  | withLast value body ih =>
    have entered : ({ c with last := value } : Context).Alike { c' with last := value } :=
      { h with last := rfl }
    obtain ⟨inside, extents⟩ := ih blind entered
    exact ⟨⟨{ inside.context with last := h.last }, inside.error⟩, extents⟩
  | setCompact value => exact ⟨⟨{ h with compact := rfl }, rfl⟩, .nil⟩
  | setLast value => exact ⟨⟨{ h with last := rfl }, rfl⟩, .nil⟩
  | render node => exact hnode node c c' h
  | intercept tag next ih =>
    have answers : (pass.inUnit unit).handles c' tag = pass.handles c tag := by
      simp [Pass.handles, Pass.inUnit, h.offers]
    have offered : (c.offer tag (pass.handles c tag)).Alike
        (c'.offer tag (pass.handles c tag)) :=
      { h with offers := by simp [Context.offer, h.offers] }
    simp only [run, extents, answers]
    exact ih _ (blind _) offered
  | observe next ih =>
    -- Both runs go on with what the program does at the unmeasured view.
    have seen : next (c'.view (pass.inUnit unit).options) = next (c.view pass.options) := by
      rw [← (blind _).2, h.unmeasured_view pass unit, (blind _).2]
    simp only [run, extents, seen]
    exact ih _ (blind _).1 h
  | consult next ih =>
    simp only [run, extents, h.notes]
    exact ih _ (blind _) h
  | attempt body next ih₁ ih₂ =>
    obtain ⟨run₁, extents₁⟩ := ih₁ blind.1 h
    obtain ⟨run₂, extents₂⟩ := ih₂ _ (blind.2 _) run₁.context
    simp only [run, extents, run₁.error]
    exact ⟨run₂, List.rel_append extents₁ extents₂⟩
  | note n =>
    have noted : (c.addNote n).Alike (c'.addNote n) :=
      { h with notes := by simp [Context.addNote, h.notes] }
    exact ⟨noted.ok, .nil⟩

end Program

namespace Pass

variable {pass : Pass} {unit : OffsetUnit}

theorem alike_unknown (node : Node) {c c' : Context} (h : c.Alike c') :
    (pass.unknown node c).Alike ((pass.inUnit unit).unknown node c') := by
  simp only [unknown, inUnit]
  cases pass.options.unknownNodes with
  | skip => exact h.ok
  | error => exact h.failed _

/-- **The rendering of a node by standard rules is alike in two units.** -/
theorem alike_render (hrules : pass.rules.FollowsStandard) (levels : Nat) (node : Node)
    {c c' : Context} (h : c.Alike c') :
    (pass.render levels node c).Alike ((pass.inUnit unit).render levels node c') ∧
      List.Forall₂ SpanExtent.Alike (pass.extents levels node c)
        ((pass.inUnit unit).extents levels node c') := by
  induction levels using Nat.strongRecOn generalizing node c c' with
  | ind levels ih =>
    cases hrule : pass.rules.find? node with
    | none =>
      have hrule' : (pass.inUnit unit).rules.find? node = none := hrule
      rw [render_of_none hrule, render_of_none hrule', extents_of_none hrule,
        extents_of_none hrule']
      exact ⟨alike_unknown node h, .nil⟩
    | some rule =>
      have hrule' : (pass.inUnit unit).rules.find? node = some rule := hrule
      rcases pass.stuck_or_shallow levels c with stuck | ⟨k, rfl, shallow⟩
      · have stuck' : (pass.inUnit unit).Stuck levels c' := stuck.imp_left (h.depth ▸ ·)
        rw [render_of_stuck hrule stuck, render_of_stuck hrule' stuck',
          extents_of_stuck hrule stuck, extents_of_stuck hrule' stuck']
        exact ⟨h.failed _, .nil⟩
      · have shallow' : c'.depth < (pass.inUnit unit).options.maxDepth := h.depth ▸ shallow
        have blind : (rule node).Blind := by
          rw [hrules node rule hrule]
          exact Program.blind_program node
        have entered : c.enterNode.Alike c'.enterNode :=
          { h with depth := by simp [Context.enterNode, h.depth] }
        obtain ⟨inside, extents⟩ := Program.alike_run
          (fun part d d' => ih k (Nat.lt_succ_self k) part) blind entered
        have left := inside.context
        rw [render_succ hrule shallow, render_succ hrule' shallow', extents_succ hrule shallow,
          extents_succ hrule' shallow']
        exact ⟨⟨{ left with
          depth := by simp [Outcome.mapContext, Context.leaveNode, left.depth] },
          inside.error⟩, extents⟩

end Pass

/-! ### Two results -/

/-- A span of one text and a span of another have the same style and mark the same place of the same
text: they cover the same piece, from one byte position to another, each of them with the numbers
that the unit of its text gives this place. -/
structure RichText.SamePlace (r r' : RichText) (s s' : Span) : Prop where
  style : s'.style = s.style
  covered : ∃ piece, r.covered? s = some piece ∧ r'.covered? s' = some piece
  start : ∃ byte, r.unit.byteIndex r.text s.offset = some byte ∧
    r'.unit.byteIndex r'.text s'.offset = some byte
  stop : ∃ byte, r.unit.byteIndex r.text s.stop = some byte ∧
    r'.unit.byteIndex r'.text s'.stop = some byte
  numbers : ∃ before piece after, r.text = before ++ piece ++ after ∧
    s.offset = r.unit.measure before ∧ s.length = r.unit.measure piece ∧
    s'.offset = r'.unit.measure before ∧ s'.length = r'.unit.measure piece

/-- Results in two units: the same error, or the same text with spans at the same places. -/
inductive SameResult (unit unit' : OffsetUnit) :
    Except RenderError RichText → Except RenderError RichText → Prop where
  | error (e : RenderError) : SameResult unit unit' (.error e) (.error e)
  | ok {text : String} {spans spans' : List Span}
    (places : List.Forall₂ (RichText.SamePlace ⟨text, spans, unit⟩ ⟨text, spans', unit'⟩)
      spans spans') :
    SameResult unit unit' (.ok ⟨text, spans, unit⟩) (.ok ⟨text, spans', unit'⟩)

/-- Spans are at the same place if they start behind the same text and are as long as the same
piece. -/
theorem RichText.samePlace_of_cut {r r' : RichText} {s s' : Span} {before piece after : String}
    (style : s'.style = s.style) (text : r.text = before ++ piece ++ after)
    (text' : r'.text = r.text) (offset : s.offset = r.unit.measure before)
    (length : s.length = r.unit.measure piece) (offset' : s'.offset = r'.unit.measure before)
    (length' : s'.length = r'.unit.measure piece) : r.SamePlace r' s s' := by
  have start (unit : OffsetUnit) :
      unit.byteIndex r.text (unit.measure before) = some (OffsetUnit.utf8.measure before) := by
    rw [text, String.append_assoc]
    exact unit.byteIndex_measure before (piece ++ after)
  have stop (unit : OffsetUnit) : unit.byteIndex r.text (unit.measure (before ++ piece)) =
      some (OffsetUnit.utf8.measure (before ++ piece)) := by
    rw [text]
    exact unit.byteIndex_measure (before ++ piece) after
  exact
    { style
      covered := ⟨piece, covered?_eq text offset length,
        covered?_eq (text'.trans text) offset' length'⟩
      start := ⟨_, offset ▸ start r.unit, text' ▸ offset' ▸ start r'.unit⟩
      stop := by
        refine ⟨OffsetUnit.utf8.measure (before ++ piece), ?_, ?_⟩
        · rw [Span.stop, offset, length, ← OffsetUnit.measure_append, stop]
        · rw [Span.stop, text', offset', length', ← OffsetUnit.measure_append, stop]
      numbers := ⟨before, piece, after, text, offset, length, offset', length'⟩ }

namespace Pass

/-- The piece of the output that a span of a pass covers, and the numbers of the span. -/
theorem exists_piece (pass : Pass) {document : Document} {e : SpanExtent}
    (he : e ∈ pass.spanExtents document) :
    ∃ piece rest, e.closed.text = e.opened.text ++ piece ∧
      (pass.outcome document).context.buffer.text = e.closed.text ++ rest ∧
      e.span.offset = pass.options.unit.measure e.opened.text ∧
      e.span.length = pass.options.unit.measure piece := by
  obtain ⟨opened, closed, grows⟩ := (pass.passage_outcome document).bracketed.grows_of_mem he
  exact SpanExtent.exists_piece opened closed grows

/-- **The unit changes only the numbers.** Whatever the interceptor is, rendering a document with
the standard rules in two units gives the same error, or the same text with spans of the same styles
at the same places, each counted in its own unit. -/
theorem result_in_units (options : RenderOptions) (interceptor : Option Interceptor)
    (unit unit' : OffsetUnit) (document : Document) :
    SameResult unit unit'
      (({ rules := .standard, options := { options with unit }, interceptor } : Pass).run
        document).result
      (({ rules := .standard, options := { options with unit := unit' }, interceptor } : Pass).run
        document).result := by
  let pass : Pass := { rules := .standard, options := { options with unit }, interceptor }
  have hrules : pass.rules.FollowsStandard := RuleSet.followsStandard_standard
  have start : (Context.start pass.options).Alike (.start (pass.inUnit unit').options) :=
    ⟨⟨rfl, rfl, rfl, rfl⟩, rfl, rfl, rfl, rfl, rfl⟩
  obtain ⟨outcome, extents⟩ :
      (pass.outcome document).Alike ((pass.inUnit unit').outcome document) ∧
        List.Forall₂ SpanExtent.Alike (pass.spanExtents document)
          ((pass.inUnit unit').spanExtents document) :=
    alike_render hrules pass.options.maxDepth (.document document) start
  have text := outcome.context.buffer.text
  show SameResult unit unit' (pass.run document).result ((pass.inUnit unit').run document).result
  rw [result_run, result_run, outcome.error]
  cases (pass.outcome document).error with
  | some error => exact .error error
  | none =>
    rw [text]
    refine .ok (List.forall₂_map_left_iff.2 (List.forall₂_map_right_iff.2 ?_))
    refine List.forall₂_iff_zip.2 ⟨extents.length_eq, fun {e e'} hzip => ?_⟩
    have alike := (List.forall₂_iff_zip.1 extents).2 hzip
    obtain ⟨he, he'⟩ := List.of_mem_zip hzip
    obtain ⟨piece, rest, hpiece, hrest, offset, length⟩ := pass.exists_piece he
    obtain ⟨piece', -, hpiece', -, offset', length'⟩ := (pass.inUnit unit').exists_piece he'
    -- Both spans were opened behind the same text and closed behind the same text.
    obtain rfl : piece' = piece := by
      rwa [alike.closed, alike.opened, hpiece, String.append_right_inj, eq_comm] at hpiece'
    rw [alike.opened] at offset'
    exact RichText.samePlace_of_cut alike.style (by rw [hrest, hpiece]) rfl offset length offset'
      length'

end Pass

end MarkdownSpans
