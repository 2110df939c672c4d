import Mathlib.Data.List.Forall2
import MarkdownSpans.Proofs.Render.Extent
import MarkdownSpans.Proofs.Text.Piece
import MarkdownSpans.Render.Script

/-!
# The spans of rich text

The result of a pass over a document (`Pass.result_run`) has one span for each extent of the pass.
`Pass.covers_spanExtents` says that such a span covers exactly what was written while it was open,
and `Pass.spans_laminar` that two spans are either nested or apart.
-/

namespace MarkdownSpans

/-- The span of an extent. -/
def SpanExtent.span (e : SpanExtent) : Span := e.tracked.span

/-- A tracker all of whose spans were closed has their spans. -/
theorem SpanTracker.finish_map_tracked (es : List SpanExtent) :
    (SpanTracker.mk (es.map SpanExtent.tracked)).finish = .ok (es.map SpanExtent.span) := by
  have closed : (SpanTracker.mk (es.map SpanExtent.tracked)).firstOpen? = none := by
    simp [firstOpen?, TrackedSpan.isClosed, SpanExtent.tracked]
  rw [finish, closed, toSpans, List.map_map]
  rfl

/-- A run from the start of a pass can be finished. -/
theorem Passage.finish {options : RenderOptions} {es : List SpanExtent} {d : Context}
    (h : Passage (.start options) es d) :
    d.finish = .ok ⟨d.buffer.text, es.map SpanExtent.span, options.unit⟩ := by
  have spans : d.spans = ⟨es.map SpanExtent.tracked⟩ := by
    rw [← List.nil_append (es.map SpanExtent.tracked)]
    exact congrArg SpanTracker.mk h.spans
  rw [Context.finish, spans, SpanTracker.finish_map_tracked, h.continues.unit]
  rfl

namespace Pass

/-- The spans that a pass over a document opens. -/
def spanExtents (pass : Pass) (document : Document) : List SpanExtent :=
  pass.extents pass.options.maxDepth (.document document) (.start pass.options)

/-- What rendering a document ends in. -/
def outcome (pass : Pass) (document : Document) : Outcome :=
  pass.render pass.options.maxDepth (.document document) (.start pass.options)

theorem passage_outcome (pass : Pass) (document : Document) :
    Passage (.start pass.options) (pass.spanExtents document) (pass.outcome document).context :=
  pass.passage_render _ _ _

/-- The result of a pass is the error of its run or, without one, the text with the spans. -/
theorem result_run (pass : Pass) (document : Document) :
    (pass.run document).result =
      match (pass.outcome document).error with
      | some error => .error error
      | none => .ok ⟨(pass.outcome document).context.buffer.text,
          (pass.spanExtents document).map SpanExtent.span, pass.options.unit⟩ := by
  rw [← (pass.passage_outcome document).finish]
  rfl

/-- The text and the spans of a successful pass. -/
theorem eq_of_result_run {pass : Pass} {document : Document} {r : RichText}
    (h : (pass.run document).result = .ok r) :
    r = ⟨(pass.outcome document).context.buffer.text,
      (pass.spanExtents document).map SpanExtent.span, pass.options.unit⟩ := by
  rw [result_run] at h
  split at h
  · cases h
  · exact (Except.ok.inj h).symm

end Pass

/-- A span of rich text covers what was written from the opening of an extent to its closing: it
starts behind the text that was there when it was opened, ends with the text that was there when it
was closed, and cuts the text at no other place than between characters. -/
structure RichText.Covers (r : RichText) (s : Span) (e : SpanExtent) : Prop where
  style : s.style = e.style
  offset : s.offset = r.unit.measure e.opened.text
  stop_le : s.offset + s.length ≤ r.unit.measure r.text
  start_boundary : r.unit.IsBoundary r.text s.offset
  stop_boundary : r.unit.IsBoundary r.text (s.offset + s.length)
  covered : ∃ piece rest, e.closed.text = e.opened.text ++ piece ∧ r.text = e.closed.text ++ rest ∧
    r.covered? s = some piece

/-- What was written while a span was open, and the numbers of the span. -/
theorem SpanExtent.exists_piece {unit : OffsetUnit} {newline : Newline} {b : Buffer}
    {e : SpanExtent} (opened : (Buffer.empty unit newline).Grows e.opened)
    (closed : e.opened.Grows e.closed) (grows : e.closed.Grows b) :
    ∃ piece rest, e.closed.text = e.opened.text ++ piece ∧ b.text = e.closed.text ++ rest ∧
      e.span.offset = unit.measure e.opened.text ∧ e.span.length = unit.measure piece := by
  obtain ⟨piece, hpiece, hlength⟩ := closed.appended
  obtain ⟨rest, hrest, -⟩ := grows.appended
  refine ⟨piece, rest, hpiece, hrest, opened.length_eq, ?_⟩
  have hunit : e.opened.unit = unit := opened.unit
  show e.closed.length - e.opened.length = unit.measure piece
  rw [hlength, hunit, Nat.add_sub_cancel_left]

/-- The span of an extent that lies within the growth of the text covers it. -/
theorem RichText.covers_of_grows {newline : Newline} {r : RichText} {b : Buffer} {e : SpanExtent}
    (opened : (Buffer.empty r.unit newline).Grows e.opened) (closed : e.opened.Grows e.closed)
    (grows : e.closed.Grows b) (text : r.text = b.text) : r.Covers e.span e := by
  obtain ⟨piece, rest, hpiece, hrest, span_offset, span_length⟩ :=
    SpanExtent.exists_piece opened closed grows
  have cut : r.text = e.opened.text ++ piece ++ rest := by rw [text, hrest, hpiece]
  have stop_boundary : r.unit.IsBoundary r.text (e.span.offset + e.span.length) :=
    ⟨e.opened.text ++ piece, rest, cut, by
      rw [span_offset, span_length, OffsetUnit.measure_append]⟩
  exact
    { style := rfl
      offset := span_offset
      stop_le := stop_boundary.le
      start_boundary := ⟨e.opened.text, piece ++ rest, by rw [cut, String.append_assoc],
        span_offset.symm⟩
      stop_boundary := stop_boundary
      covered := ⟨piece, rest, hpiece, by rw [text, hrest],
        RichText.covered?_eq cut span_offset span_length⟩ }

namespace Pass

/-- **Every span covers what was written while it was open.** Whatever the rules and the
interceptor are, the spans of a successful pass are those it opened, in this order, and each of them
fits the text and covers what was appended between its opening and its closing. -/
theorem covers_spanExtents {pass : Pass} {document : Document} {r : RichText}
    (h : (pass.run document).result = .ok r) :
    r.unit = pass.options.unit ∧ List.Forall₂ r.Covers r.spans (pass.spanExtents document) := by
  obtain rfl := eq_of_result_run h
  refine ⟨rfl, List.forall₂_map_left_iff.2 (List.forall₂_same.2 fun e he => ?_)⟩
  obtain ⟨opened, closed, grows⟩ := (pass.passage_outcome document).bracketed.grows_of_mem he
  exact RichText.covers_of_grows opened closed grows rfl

/-- A rule that opens a span in a span and gives up in a third one, in a quote and in emphasis. -/
theorem covers_spanExtents_scripted :
    let steps : List ScriptStep := [.span { kind := .italic }
      [.span { kind := .code } [.content],
        .attempt [.span { kind := .unknown } [.write "!", .fail (.depthLimit 0)]]]]
    let pass : Pass := { rules := RuleSet.standard.insert .codeSpan (scriptRule steps) }
    let document : Document := ⟨[.quote [.marked .lf, .marked .absent]
      [.paragraph [.codeSpan "é😀", .lineBreak .lf false, .emphasis '*' 2 [.codeSpan "b"]] {}] {}]⟩
    let r : RichText := ⟨"> é😀!\n> b!",
      [⟨2, 4, { kind := .italic }⟩, ⟨2, 3, { kind := .code }⟩, ⟨5, 1, { kind := .unknown }⟩,
        ⟨9, 2, { kind := .bold }⟩, ⟨9, 2, { kind := .italic }⟩, ⟨9, 1, { kind := .code }⟩,
        ⟨10, 1, { kind := .unknown }⟩], .utf16⟩
    (pass.run document).result = .ok r ∧ r.unit = pass.options.unit ∧
      List.Forall₂ r.Covers r.spans (pass.spanExtents document) :=
  ⟨rfl, covers_spanExtents rfl⟩

/-- **Two spans are nested or apart.** Of two spans of a successful pass the later one does not
start before the earlier one, and it ends within the earlier one or starts behind it. -/
theorem spans_laminar {pass : Pass} {document : Document} {r : RichText}
    (h : (pass.run document).result = .ok r) :
    r.spans.Pairwise fun s t => s.offset ≤ t.offset ∧ (t.stop ≤ s.stop ∨ s.stop ≤ t.offset) := by
  obtain rfl := eq_of_result_run h
  have bracketed := (pass.passage_outcome document).bracketed
  have stop_eq : ∀ e ∈ pass.spanExtents document, e.span.stop = e.closed.length := by
    intro e he
    have := (bracketed.grows_of_mem he).2.1.length_le
    show e.opened.length + (e.closed.length - e.opened.length) = e.closed.length
    omega
  refine List.pairwise_map.2 (bracketed.pairwise.imp_of_mem ?_)
  intro e f he hf ⟨opened, nested⟩
  rw [stop_eq e he, stop_eq f hf]
  exact ⟨opened.length_le, nested.imp (·.length_le) (·.length_le)⟩

/-- Spans that share both ends, an end, or none, and an empty one behind them. -/
theorem spans_laminar_emphasis :
    let document : Document := ⟨[.paragraph [.emphasis '*' 2 [.emphasis '_' 1 [.literal "ab"],
      .codeSpan "c"], .link "/" none false [.emphasis '~' 2 [.literal "d"]], .codeSpan ""] {}]⟩
    let r : RichText := ⟨"abcd", [⟨0, 3, { kind := .bold }⟩, ⟨0, 2, { kind := .italic }⟩,
      ⟨2, 1, { kind := .code }⟩, ⟨3, 1, { kind := .url, url := some "/" }⟩,
      ⟨3, 1, { kind := .strikethrough }⟩, ⟨4, 0, { kind := .code }⟩], .utf16⟩
    (({ rules := .standard } : Pass).run document).result = .ok r ∧
      r.spans.Pairwise fun s t => s.offset ≤ t.offset ∧ (t.stop ≤ s.stop ∨ s.stop ≤ t.offset) := by
  intro document r
  have h : (({ rules := .standard } : Pass).run document).result = .ok r := rfl
  exact ⟨h, spans_laminar h⟩

end Pass

end MarkdownSpans
