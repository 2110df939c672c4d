import Mathlib
import MarkdownSpans.Proofs.Render.Spans
import MarkdownSpans.Proofs.Render.Spelled
import MarkdownSpans.Proofs.Tree.FencedCode

/-!
# Rendering fenced blocks of code

A program that `Marks` a piece of its text opens one span and closes it behind this piece. A fenced
block of code marks its content; so the text of a fenced block and its span are known
(`Pass.text_fencedSource_iff`).
-/

namespace MarkdownSpans

open Line (joined)

namespace Program

variable {pass : Pass} {n : Nat} {p q : Program} {style : SpanStyle}
  {a b before piece after : List Char}

/-- Without open containers and if there is room for `n` nested nodes, the program writes three
pieces of text, and opens just one span, over the piece in the middle. -/
def Marks (pass : Pass) (n : Nat) (p : Program) (style : SpanStyle)
    (before piece after : List Char) : Prop :=
  ∀ levels (c : Context), n ≤ levels → c.depth + n ≤ pass.options.maxDepth →
    c.buffer.indents = [] →
    ∃ (opened closed buffer : Buffer) (spans : SpanTracker),
      p.run pass (pass.render levels) c = ({ c with buffer, spans } : Context).ok ∧
      p.extents pass (pass.render levels) (pass.extents levels) c = [⟨style, opened, closed⟩] ∧
      c.buffer.Gains opened before ∧ opened.Gains closed piece ∧ closed.Gains buffer after

/-- A program that only writes text opens no span. -/
theorem extents_of_run {levels : Nat} {c : Context} {buffer : Buffer}
    (hrun : p.run pass (pass.render levels) c = ({ c with buffer } : Context).ok) :
    p.extents pass (pass.render levels) (pass.extents levels) c = [] := by
  have spans := (@passage_run pass _ _ (pass.passage_render levels) p c).spans
  rw [hrun] at spans
  simpa [Context.ok] using spans

namespace Marks

/-- A program that only writes text, in a span. -/
theorem span (hp : Types pass n p a) (style : SpanStyle) :
    Marks pass n (.span style p) style [] a [] := by
  intro levels c hlevels hdepth hindents
  have entered : c.openSpan style =
      { c with spans := c.spans.openAt style c.buffer.length } := by
    rw [Context.openSpan, Buffer.flushIndent_of_nil hindents]
  obtain ⟨buffer, hrun, hgains⟩ :=
    hp levels { c with spans := c.spans.openAt style c.buffer.length } hlevels hdepth hindents
  refine ⟨c.buffer, buffer, buffer,
    (c.spans.openAt style c.buffer.length).closeAt c.spans.size buffer.length, ?_, ?_,
    .refl hindents, hgains, .refl hgains.indents⟩
  · rw [run, entered, hrun]
    rfl
  · rw [extents, entered, hrun, extents_of_run hrun]
    rfl

/-- Text may be written before. -/
theorem of_types_seq (hp : Types pass n p a) (hq : Marks pass n q style before piece after) :
    Marks pass n (.seq p q) style (a ++ before) piece after := by
  intro levels c hlevels hdepth hindents
  obtain ⟨buffer, hrun, hgains⟩ := hp levels c hlevels hdepth hindents
  obtain ⟨opened, closed, buffer', spans, hrun', hextents, hbefore, hpiece, hafter⟩ :=
    hq levels { c with buffer } hlevels hdepth hgains.indents
  refine ⟨opened, closed, buffer', spans, ?_, ?_, hgains.trans hbefore, hpiece, hafter⟩
  · rw [run, hrun]
    exact hrun'
  · rw [extents, hrun, extents_of_run hrun]
    exact hextents

/-- Text may be written after. -/
theorem seq_types (hp : Marks pass n p style before piece after) (hq : Types pass n q b) :
    Marks pass n (.seq p q) style before piece (after ++ b) := by
  intro levels c hlevels hdepth hindents
  obtain ⟨opened, closed, buffer, spans, hrun, hextents, hbefore, hpiece, hafter⟩ :=
    hp levels c hlevels hdepth hindents
  obtain ⟨buffer', hrun', hgains⟩ :=
    hq levels { c with buffer, spans } hlevels hdepth hafter.indents
  refine ⟨opened, closed, buffer', spans, ?_, ?_, hbefore, hpiece, hafter.trans hgains⟩
  · rw [run, hrun]
    exact hrun'
  · rw [extents, hrun, hextents]
    exact congrArg (_ :: ·) (extents_of_run hrun')

theorem withLast {value : Bool} (hp : Marks pass n p style before piece after) :
    Marks pass n (.withLast value p) style before piece after := by
  intro levels c hlevels hdepth hindents
  obtain ⟨opened, closed, buffer, spans, hrun, h⟩ :=
    hp levels { c with last := value } hlevels hdepth hindents
  exact ⟨opened, closed, buffer, spans, by rw [run, hrun]; rfl, h⟩

/-- What a program sees of the options are those of the pass. -/
theorem observe {next : View → Program}
    (h : ∀ view : View, view.options = pass.options →
      Marks pass n (next view) style before piece after) :
    Marks pass n (.observe next) style before piece after :=
  fun levels c => h (c.view pass.options) rfl levels c

/-- A node is rendered by its standard rule, one level deeper. -/
theorem render {node : Node} (hrules : pass.rules = .standard) (hname : node.customName? = none)
    (hp : Marks pass n node.program style before piece after) :
    Marks pass (n + 1) (.render node) style before piece after := by
  intro levels c hlevels hdepth hindents
  obtain ⟨k, rfl⟩ := Nat.exists_eq_add_of_le' hlevels
  have hrule := Pass.find?_of_standard hrules hname
  have hrule' : standardRule node.kind node = node.program := by rw [standardRule, if_pos rfl]
  obtain ⟨opened, closed, buffer, spans, hrun, hextents, h⟩ :=
    hp (k + n) c.enterNode (by omega) (by show c.depth + 1 + n ≤ _; omega) hindents
  refine ⟨opened, closed, buffer, spans, ?_, ?_, h⟩
  · show pass.render (k + n + 1) node c = _
    rw [Pass.render_succ hrule (by omega), hrule', hrun]
    rfl
  · show pass.extents (k + n + 1) node c = _
    rw [Pass.extents_succ hrule (by omega), hrule', hextents]

/-- The text may be given in another way. -/
theorem of_eq (hp : Marks pass n p style before piece after) (hbefore : before = a)
    (hafter : after = b) : Marks pass n p style a piece b := hbefore ▸ hafter ▸ hp

/-- A block of code marks its lines, between the fence lines that are kept. -/
theorem codeBlock {content : List Line} {fence : Fence} {trivia : Trivia} {ls : List Line}
    (hkeep : pass.options.keepCodeFences = true) (hbefore : trivia.linesBefore = none)
    (hafter : trivia.linesAfter = some ls) :
    Marks pass n (.codeBlock content (some fence) trivia)
      { kind := .pre, language := fence.language? }
      (trivia.before.toList ++ joined [fence.opening]) (joined content)
      (joined (fence.closing.toList) ++ (trivia.after.toList ++ joined ls)) := by
  refine .observe fun view hview => ?_
  have kept : ((some fence).filter fun _ => view.options.keepCodeFences) = some fence := by
    simp [hview, hkeep]
  show Marks pass n (.all _) _ _ _ _
  rw [kept]
  refine .of_eq (.of_types_seq (.linesBefore trivia) <| .of_types_seq (.write trivia.before) <|
    .of_types_seq (.lines [fence.opening]) <| .seq_types (.span (.lines content) _) <|
    .seq (.lines fence.closing.toList) <| .seq (.write trivia.after) <|
    .seq (.linesAfter hafter) .done) ?_ ?_
  · simp [hbefore]
  · simp

end Marks

end Program

namespace Pass

/-- **The text and the span of a document that marks a piece**: the span covers this piece. -/
theorem exists_result_of_marks {pass : Pass} {document : Document} {n : Nat}
    {style : SpanStyle} {before piece after : List Char}
    (h : Program.Marks pass n (.render (.document document)) style before piece after)
    (hdepth : n ≤ pass.options.maxDepth) :
    ∃ r s, (pass.run document).result = .ok r ∧ r.text = String.ofList (before ++ piece ++ after) ∧
      r.spans = [s] ∧ s.style = style ∧ r.covered? s = some (String.ofList piece) := by
  obtain ⟨opened, closed, buffer, spans, hrun, hextents, hbefore, hpiece, hafter⟩ :=
    h pass.options.maxDepth (.start pass.options) hdepth (by simpa [Context.start] using hdepth) rfl
  have outcome : pass.outcome document =
      ({ Context.start pass.options with buffer, spans } : Context).ok := hrun
  have extents : pass.spanExtents document = [⟨style, opened, closed⟩] := hextents
  have result : (pass.run document).result =
      .ok ⟨buffer.text, [(⟨style, opened, closed⟩ : SpanExtent).span], pass.options.unit⟩ := by
    rw [result_run, outcome, extents]
    rfl
  obtain ⟨hopened, hclosed, hgrows⟩ := (pass.passage_outcome document).bracketed.grows_of_mem
    (e := ⟨style, opened, closed⟩) (by simp [extents])
  refine ⟨_, _, result, ?_, rfl, rfl, ?_⟩
  · have text := ((hbefore.trans hpiece).trans hafter).text
    exact text.trans String.empty_append
  · rw [outcome] at hgrows
    obtain ⟨piece', -, happended, -, hcovered⟩ :=
      (RichText.covers_of_grows (r := ⟨buffer.text, [(⟨style, opened, closed⟩ : SpanExtent).span],
        pass.options.unit⟩) hopened hclosed hgrows rfl).covered
    rw [hcovered, (String.append_right_inj _).1 (happended.symm.trans hpiece.text)]

/-- **A fenced block of code keeps its content, but not always its end.** Its document has the lines
of the text, and its span covers just these. A closing fence is recorded also if a block that is not
closed ends with a line that looks like one, and empty lines at the end of such a block are recorded
a second time; only then is it not rendered as its source. -/
theorem text_fencedSource_iff (f : FencedSource) (info : String)
    {pieces : List (String × ByteRange)}
    (hpieces : String.join (pieces.map (·.1)) = String.ofList (joined f.contentLines))
    (options : ParseOptions) (registry : EmojiRegistry) {pass : Pass}
    (hrules : pass.rules = .standard) (hkeep : pass.options.keepCodeFences = true)
    (hdepth : 2 ≤ pass.options.maxDepth) :
    ∃ document closing trailing r s,
      Document.ofEvents? f.source [] options (f.events info pieces) registry = some document ∧
      document = ⟨[.codeBlock f.contentLines (some ⟨info, f.openingLine, closing⟩)
        { linesAfter := some trailing }]⟩ ∧
      (closing.isSome = true ↔ f.closing.isSome = true ∨ f.Feigned) ∧
      (pass.run document).result = .ok r ∧
      (r.text = f.source ↔
        f.closing.isSome = true ∨ ¬f.Feigned ∧ f.content.getLast? ≠ some "") ∧
      r.spans = [s] ∧ s.style.kind = .pre ∧
      r.covered? s = some (String.ofList (joined f.contentLines)) := by
  have block : Program.Marks pass 1 (.render (.block (f.block info)))
      { kind := .pre, language := Fence.language? ⟨info, f.openingLine, f.recordedClosing⟩ }
      _ (joined f.contentLines) _ :=
    .render hrules rfl (.codeBlock hkeep rfl rfl)
  have whole : Program.Marks pass 2 (.render (.document ⟨[f.block info]⟩)) _ _
      (joined f.contentLines) _ :=
    .render hrules rfl (.seq_types block.withLast .done)
  obtain ⟨r, s, hresult, htext, hspans, hstyle, hcovered⟩ := exists_result_of_marks whole hdepth
  have text : r.text = String.ofList (joined f.recordedLines) := by
    rw [htext]
    simp [FencedSource.recordedLines]
  refine ⟨_, f.recordedClosing, f.trailing, r, s,
    Document.ofEvents?_fencedSource f info hpieces options registry, rfl,
    f.isSome_recordedClosing_iff, hresult, ?_, hspans, by rw [hstyle], hcovered⟩
  rw [text, FencedSource.source, String.ofList_inj, f.joined_recordedLines_iff]

theorem text_fencedSource_iff_tilde :
    let f : FencedSource :=
      ⟨true, 4, by decide, "rust", ["a", "> ~~~ ", ""], none, nofun, by decide, by decide⟩
    let pieces : List (String × ByteRange) := [("a\n", ⟨9, 11⟩), ("> ~~~ \n\n", ⟨11, 19⟩)]
    let pass : Pass := { rules := .standard, options := { keepCodeFences := true } }
    String.join (pieces.map (·.1)) = String.ofList (joined f.contentLines) ∧
    ∃ document closing trailing r s,
      Document.ofEvents? f.source [] {} (f.events "rust" pieces) = some document ∧
      document = ⟨[.codeBlock f.contentLines (some ⟨"rust", f.openingLine, closing⟩)
        { linesAfter := some trailing }]⟩ ∧
      (closing.isSome = true ↔ f.closing.isSome = true ∨ f.Feigned) ∧
      (pass.run document).result = .ok r ∧
      (r.text = f.source ↔
        f.closing.isSome = true ∨ ¬f.Feigned ∧ f.content.getLast? ≠ some "") ∧
      r.spans = [s] ∧ s.style.kind = .pre ∧
      r.covered? s = some (String.ofList (joined f.contentLines)) := by
  intro f pieces pass
  have hpieces : String.join (pieces.map (·.1)) = String.ofList (joined f.contentLines) := by cbv
  exact ⟨hpieces, text_fencedSource_iff f "rust" hpieces {} knownEmoji rfl rfl (by decide)⟩

/-- A block that is not closed ends with a shorter line of marks, which is written twice. -/
theorem text_ne_of_short_fence :
    ¬∃ document r fence lines trivia,
      Document.ofEvents? "\x60\x60\x60\x60\n\x60\x60\x60\n" []
        {} [⟨.enter (.codeBlock (some "")), ⟨0, 9⟩⟩, ⟨.text "\x60\x60\x60\n", ⟨5, 9⟩⟩,
          ⟨.leave .codeBlock, ⟨0, 9⟩⟩] = some document ∧
      document = ⟨[.codeBlock lines (some fence) trivia]⟩ ∧
      (Pass.run { rules := .standard, options := { keepCodeFences := true } } document).result =
        .ok r ∧
      (fence.closing = none ∨ r.text = "\x60\x60\x60\x60\n\x60\x60\x60\n") := by
  rintro ⟨document, r, fence, lines, trivia, hdocument, hblock, hresult, hright⟩
  have built : Document.ofEvents? "\x60\x60\x60\x60\n\x60\x60\x60\n" []
      {} [⟨.enter (.codeBlock (some "")), ⟨0, 9⟩⟩, ⟨.text "\x60\x60\x60\n", ⟨5, 9⟩⟩,
        ⟨.leave .codeBlock, ⟨0, 9⟩⟩] =
      some ⟨[.codeBlock [⟨"\x60\x60\x60", .lf⟩]
        (some ⟨"", ⟨"\x60\x60\x60\x60", .lf⟩, some ⟨"\x60\x60\x60", .lf⟩⟩) .tracked]⟩ := by cbv
  obtain rfl := Option.some.inj (built.symm.trans hdocument)
  have rendered : (Pass.run { rules := .standard, options := { keepCodeFences := true } }
      ⟨[.codeBlock [⟨"\x60\x60\x60", .lf⟩]
        (some ⟨"", ⟨"\x60\x60\x60\x60", .lf⟩, some ⟨"\x60\x60\x60", .lf⟩⟩) .tracked]⟩).result =
      .ok ⟨"\x60\x60\x60\x60\n\x60\x60\x60\n\x60\x60\x60\n", [⟨5, 4, { kind := .pre }⟩],
        .utf16⟩ := by cbv
  obtain rfl := Except.ok.inj (rendered.symm.trans hresult)
  cases hblock
  rcases hright with hclosing | htext
  · cases hclosing
  · exact absurd htext (by decide)

end Pass

end MarkdownSpans
