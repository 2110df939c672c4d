import MarkdownSpans.Proofs.Render.Edits
import MarkdownSpans.Proofs.Tree.QuotedParagraphs

/-!
# Rendering a quote of paragraphs

The paragraphs of a quote are written as lines without leads, the empty lines around them among
these, and each line takes the next of the leads that the quote recorded. There are as many of them
as lines of the source, in the same order, so that every line gets the lead it was read with and the
text is the source (`Pass.run_quotedSource`).
-/

namespace MarkdownSpans

open Line (joined)

/-! ### Lines under the leads of a quote -/

namespace Buffer

variable {leads : List String} {used : Nat} {text : String} {unit : OffsetUnit} {b : Buffer}

/-- The buffer has this text and is at the start of a line, for which the leads of a quote go on
behind those that are used. -/
structure Under (leads : List String) (used : Nat) (text : String) (unit : OffsetUnit)
    (b : Buffer) : Prop where
  text : b.text = text
  indents : b.indents = [.perLine leads used]
  atLineStart : b.atLineStart = true
  unit : b.unit = unit

/-- A line takes the next lead, even if it is empty. -/
theorem Under.writeLine (h : b.Under leads used text unit) {lead : String}
    (hlead : leads[used]? = some lead) {line : Line} (hline : line.newline ≠ .absent) :
    ((b.write line.text).writeLine line.newline).Under leads (used + 1)
      (text ++ (lead ++ line.written)) unit := by
  have bound : used < leads.length := (List.getElem?_eq_some_iff.1 hlead).1
  have pending : b.pendingLead = lead := by
    simp [pendingLead, h.indents, Indent.lead, hlead]
  rw [writeLine_write_of_lineStart h.atLineStart hline, pending]
  exact ⟨congrArg (· ++ _) h.text, by simp [h.indents, Indent.advance, bound], h.atLineStart,
    h.unit⟩

/-- **Lines take the leads of a quote in turn**, those before them being used. -/
theorem Under.writeLines {before : List String} {ls : List LedLine}
    (hleads : leads = before ++ ls.map fun l => String.ofList l.lead)
    (h : b.Under leads before.length text unit) (hls : ∀ l ∈ ls, l.newline ≠ .absent) :
    (b.writeLines (ls.map LedLine.content)).Under leads leads.length
      (text ++ String.ofList (joined (ls.map LedLine.line))) unit := by
  induction ls generalizing before text b with
  | nil => simpa [Buffer.writeLines, hleads] using h
  | cons l rest ih =>
    obtain ⟨hl, hrest⟩ := List.forall_mem_cons.1 hls
    have lead : leads[before.length]? = some (String.ofList l.lead) := by simp [hleads]
    have next : ((b.write l.text).writeLine l.newline).Under leads
        (before ++ [String.ofList l.lead]).length
        (text ++ (String.ofList l.lead ++ l.content.written)) unit := by
      rw [List.length_append]
      exact h.writeLine lead hl
    have written : text ++ String.ofList (joined ((l :: rest).map LedLine.line)) =
        text ++ (String.ofList l.lead ++ l.content.written) ++
          String.ofList (joined (rest.map LedLine.line)) := by
      rw [← String.toList_inj]
      simp [l.chars_line, Line.written, LedLine.content, Newline.toList_text]
    rw [written]
    exact ih (by simp [hleads]) next hrest

end Buffer

/-! ### The quote -/

/-- The paragraphs of a quote write the contents of its lines. -/
theorem Program.Edits.quotedDocument {pass : Pass} (hrules : pass.rules = .standard)
    (init : List QuotedParagraph) (last : QuotedParagraph) (trailing : List QuotedLine) :
    Edits pass 4 (.render (.document (quotedDocument init last trailing)))
      (·.quoted ((quotedLines (init ++ [last]) trailing).map (·.read.lead))
        (·.writeLines ((quotedLines (init ++ [last]) trailing).map QuotedLine.content))) := by
  have paragraph (p : QuotedParagraph) (after : List QuotedLine) :
      Edits pass 2 (.render (.block (p.block after)))
        (·.writeLines ((p.lines ++ after).map QuotedLine.content)) := by
    have newlines : ∀ line ∈ (p.init ++ [p.last]).map QuotedLine.content,
        line.newline ≠ .absent := by
      intro line hline
      obtain ⟨l, -, rfl⟩ := List.mem_map.1 hline
      exact l.ended
    refine .of_eq (.paragraph hrules (.inlineLines hrules newlines) (Builder.getD_recorded _) rfl
      rfl) fun b => ?_
    simp [QuotedParagraph.lines]
  let parts : List (QuotedParagraph × List QuotedLine) := init.map (·, []) ++ [(last, trailing)]
  have blocks : Edits pass 2 (.blocks (parts.map fun part => part.1.block part.2)) _ :=
    .blocks fun part _ => paragraph part.1 part.2
  have children : parts.map (fun part => part.1.block part.2) =
      init.map (·.block []) ++ [last.block trailing] := by
    simp [parts, Function.comp_def]
  have contents : (parts.flatMap fun part => (part.1.lines ++ part.2).map QuotedLine.content) =
      (quotedLines (init ++ [last]) trailing).map QuotedLine.content := by
    simp [parts, quotedLines, List.flatMap_map, List.map_flatMap]
  rw [children, contents] at blocks
  have quote := blocks.quote hrules ((quotedLines (init ++ [last]) trailing).map QuotedLine.read)
    (by simp)
  rw [List.map_map] at quote
  exact .render hrules rfl (quote.withLast.seq .done)

namespace Pass

/-- **A quote of paragraphs is rendered as it is.** The quote may mark its lines with and without a
space, go on lazily, have lines without text before, between and behind its paragraphs, and end its
lines in any way. -/
theorem run_quotedSource (init : List QuotedParagraph) (last : QuotedParagraph)
    {trailing : List QuotedLine} (htrailing : ∀ l ∈ trailing, l.text = "") (whole : Nat → Bool)
    {options : ParseOptions} (hemoji : options.emoji = false) (hroom : 1 ≤ options.maxDepth)
    (registry : EmojiRegistry) {pass : Pass} (hrules : pass.rules = .standard)
    (hdepth : 4 ≤ pass.options.maxDepth) :
    Document.ofEvents? (quotedSource (init ++ [last]) trailing) [] options
        (quotedEvents whole (init ++ [last]) trailing) registry =
      some (quotedDocument init last trailing) ∧
    (pass.run (quotedDocument init last trailing)).result =
      .ok ⟨quotedSource (init ++ [last]) trailing, [], pass.options.unit⟩ := by
  refine ⟨Document.ofEvents?_quotedSource init last htrailing whole hemoji hroom registry, ?_⟩
  let lines := quotedLines (init ++ [last]) trailing
  let leads := lines.map (·.read.lead)
  have hrun := Program.Edits.quotedDocument hrules init last trailing pass.options.maxDepth
    (.start pass.options) hdepth (by simpa [Context.start] using hdepth)
  have begun : ((Buffer.empty pass.options.unit pass.options.newline).pushIndent
      (.ofLeads leads)).Under leads 0 "" pass.options.unit := ⟨rfl, rfl, rfl, rfl⟩
  have same : leads = [] ++ (lines.map QuotedLine.led).map fun l => String.ofList l.lead := by
    rw [List.nil_append, List.map_map]
    exact List.map_congr_left fun l _ => l.lead_read
  have written := begun.writeLines same (by
    intro l hl
    obtain ⟨l, -, rfl⟩ := List.mem_map.1 hl
    exact l.ended)
  rw [List.map_map, List.map_map, String.empty_append] at written
  show (pass.render pass.options.maxDepth _ _).result = _
  refine (congrArg Outcome.result hrun).trans ?_
  exact congrArg₂ (fun text unit => Except.ok (⟨text, [], unit⟩ : RichText)) written.text
    written.unit

/-- A paragraph that goes on lazily and one behind two lines without text, with lines that end in
every way and two lines without text at the end. -/
theorem run_quotedSource_mixed :
    let first : QuotedParagraph :=
      { before := []
        init := [⟨some true, "a", .lf, by decide, by rintro c ⟨rfl⟩; decide, by decide, by decide⟩]
        last := ⟨none, "b", .cr, by decide, by rintro c ⟨rfl⟩; decide, by decide, by decide⟩
        empty := by simp
        filled := by simp }
    let second : QuotedParagraph :=
      { before := [⟨some false, "", .crlf, by decide, by rintro c ⟨⟩, by decide, by decide⟩,
          ⟨some true, "", .lf, by decide, by rintro c ⟨⟩, by decide, by decide⟩]
        init := []
        last := ⟨some false, "c", .crlf, by decide, by rintro c ⟨rfl⟩; decide, by decide, by decide⟩
        empty := by simp
        filled := by simp }
    let trailing : List QuotedLine :=
      [⟨some false, "", .cr, by decide, by rintro c ⟨⟩, by decide, by decide⟩,
        ⟨some true, "", .lf, by decide, by rintro c ⟨⟩, by decide, by decide⟩]
    quotedSource ([first] ++ [second]) trailing = "> a\nb\r>\r\n> \n>c\r\n>\r> \n" ∧
    (∀ l ∈ trailing, l.text = "") ∧
    Document.ofEvents? (quotedSource ([first] ++ [second]) trailing) [] { emoji := false }
        (quotedEvents (· == 0) ([first] ++ [second]) trailing) =
      some (quotedDocument [first] second trailing) ∧
    (Pass.run { rules := .standard } (quotedDocument [first] second trailing)).result =
      .ok ⟨quotedSource ([first] ++ [second]) trailing, [], .utf16⟩ := by
  intro first second trailing
  have empty : ∀ l ∈ trailing, l.text = "" := by simp [trailing]
  exact ⟨by decide, empty,
    run_quotedSource [first] second empty (· == 0) rfl (by decide) knownEmoji rfl (by decide)⟩

end Pass

end MarkdownSpans
