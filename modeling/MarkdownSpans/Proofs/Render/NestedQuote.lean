import Mathlib
import MarkdownSpans.Proofs.Render.Laid
import MarkdownSpans.Proofs.Tree.NestedQuote

/-!
# Rendering nested quotes

Quotes put what they record of a line before it, the outer one first. So the text of a quote in a
quote is its source exactly if the inner quote records the marker of every line as it is, and that
is if no outer marker is wider or narrower than the first one (`Pass.text_nestedSource_iff`).
-/

namespace MarkdownSpans

open Line (Chained joined)

/-! ### Lines under leads -/

namespace Page

variable {p : Page}

/-- Whole lines get the leads of the containers that were opened. -/
theorem writeLines_of_none (h : p.current = none) {ls : List Line}
    (hls : ∀ line ∈ ls, line.text ≠ "") :
    p.writeLines ls =
      { done := p.done ++ ls.mapIdx fun i line => ⟨leadsAt p.inner i ++ line.text, line.newline⟩
        inner := p.inner.map Indent.advance^[ls.length] } := by
  induction ls generalizing p with
  | nil => simp [← h]
  | cons line rest ih =>
    obtain ⟨hline, hrest⟩ := List.forall_mem_cons.1 hls
    rw [writeLines_cons, write_of_none h hline, writeLine_of_some rfl, ih rfl hrest]
    simp [leadsAt_advance, Function.iterate_succ]

end Page

namespace Program.Lays

variable {pass : Pass} {newline : Newline} {n : Nat} {last : Bool} {page page' : Page}

/-- A quote that begins at the start of a line puts its leads before the lines of its block. -/
theorem quote (hrules : pass.rules = .standard) {recorded : List QuoteLine} {b : Block}
    {done : List Line} {inner : List Indent} {i : Indent} (hcurrent : page.current = none)
    (hp : Lays pass newline n (.render (.block b)) true
      (page.pushIndent (.ofLeads (recorded.map (·.lead)))) { done, inner := inner ++ [i] }) :
    Lays pass newline (n + 1) (.render (.block (.quote recorded [b] .tracked))) last page
      { done, inner } := by
  have start : page.Settled := by
    simp [Page.Settled, hcurrent]
  have left : ({ done, inner := inner ++ [i] } : Page).popIndent = { done, inner } := by
    simp [Page.popIndent]
  have quoted : Lays pass newline n (.quoted (recorded.map (·.lead)) (.blocks [b])) last page
      { done, inner } := by
    refine .observe fun view _ _ hstart => ?_
    rw [if_pos (by rw [hstart start, hcurrent]; rfl), ← left]
    exact .indent start (.seq (.withLast hp) .done) (by simp [Page.Settled]) (by simp)
  have after : Lays pass newline n (.linesAfter .tracked) last { done, inner } { done, inner } :=
    .noLinesAfter rfl
  refine .render hrules rfl ?_
  exact .seq (.noLinesBefore rfl) <| .seq (.write "") <| .seq quoted <| .seq after .done

end Program.Lays

namespace NestedLine

/-- The line as it is rendered, if there is a space behind the first of the outer markers or not. -/
def rendered (wide : Bool) (l : NestedLine) : Line :=
  ⟨l.readOuter.lead ++ (l.readInner wide).lead ++ l.text, .lf⟩

/-- The page that a quote in a quote leads to has its lines with what the quotes record of them. -/
theorem lays_nested {pass : Pass} (hrules : pass.rules = .standard) (newline : Newline)
    {lines : List NestedLine} (wide : Bool) :
    Program.Lays pass newline 4
      (.render (.block (.quote (lines.map (·.readOuter))
        [.quote (lines.map (·.readInner wide))
          [.paragraph ((lines.map NestedLine.content).flatMap Line.inlines) .tracked] .tracked]
        .tracked))) true {} { done := lines.map (rendered wide) } := by
  let outer : Indent := .ofLeads ((lines.map (·.readOuter)).map (·.lead))
  let inner : Indent := .ofLeads ((lines.map (·.readInner wide)).map (·.lead))
  have feeds : ∀ line ∈ lines.map NestedLine.content, line.newline.HasFeed := by
    simp [NestedLine.content, Newline.HasFeed]
  have texts : ∀ line ∈ lines.map NestedLine.content, line.text ≠ "" := by
    simpa [NestedLine.content] using fun l _ => l.ne_empty
  have leads : ((lines.map NestedLine.content).mapIdx fun i line =>
      (⟨leadsAt [outer, inner] i ++ line.text, line.newline⟩ : Line)) =
      lines.map (rendered wide) := by
    refine List.ext_getElem (by simp) fun i hi hi' => ?_
    have bound : i < lines.length := by simpa using hi'
    simp [leadsAt, outer, inner, Indent.ofLeads, Indent.leadAt, rendered, NestedLine.content, bound]
  have paragraph : Program.Lays pass newline 2
      (.render (.block (.paragraph ((lines.map NestedLine.content).flatMap Line.inlines) .tracked)))
      true { inner := [outer, inner] } _ := .paragraph hrules feeds
  rw [Page.writeLines_of_none rfl texts, leads] at paragraph
  have nested : Program.Lays pass newline 3 _ true { inner := [outer] }
      { done := lines.map (rendered wide), inner := [Indent.advance^[_] outer] } :=
    .quote hrules rfl paragraph
  exact .quote hrules rfl nested

/-- A line is rendered as it is exactly if its outer marker is as wide as the first one. -/
theorem rendered_eq_line_iff (l : NestedLine) (wide : Bool) :
    l.rendered wide = l.line ↔ l.outerSpace = wide := by
  have leads : l.rendered wide = l.line ↔
      l.readOuter.lead.toList ++ (l.readInner wide).lead.toList = l.lead := by
    rw [rendered, line, Line.mk.injEq, ← String.toList_inj, String.toList_append,
      String.toList_append, String.toList_ofList, List.append_left_inj, and_iff_left rfl]
  rw [leads, NestedLine.lead]
  unfold readInner
  cases wide <;> cases houter : l.outerSpace <;> cases hinner : l.innerSpace <;>
    simp [readOuter, QuoteLine.lead, quoteMarker, houter]

/-- The inner marker of a line is found unless the outer marker is narrower than the first one. -/
theorem marker_readInner_iff (l : NestedLine) (wide : Bool) :
    (l.readInner wide).marker = true ↔ (wide = true → l.outerSpace = true) := by
  unfold readInner
  cases wide <;> cases l.outerSpace <;> simp

theorem chained_rendered (lines : List NestedLine) (wide : Bool) :
    Chained (lines.map (rendered wide)) := by
  refine .of_lf fun line hline => ?_
  obtain ⟨l, -, rfl⟩ := List.mem_map.1 hline
  refine ⟨?_, rfl⟩
  have outer : Unbroken l.readOuter.lead.toList := by
    unfold readOuter QuoteLine.lead
    cases l.outerSpace <;> decide
  have inner : Unbroken (l.readInner wide).lead.toList := by
    unfold readInner QuoteLine.lead
    cases wide <;> cases l.outerSpace <;> cases l.innerSpace <;> decide
  rw [rendered, String.toList_append, String.toList_append]
  exact (outer.append inner).append l.unbroken

end NestedLine

namespace Pass

/-- **A quote in a quote is rendered as its source exactly if all its outer markers are as wide as
the first one.** The inner quote records a marker on every line exactly if no outer marker is narrower
than the first one. -/
theorem text_nestedSource_iff (init : List NestedLine) (last : NestedLine) {options : ParseOptions}
    (hemoji : options.emoji = false) (hroom : 2 ≤ options.maxDepth) (registry : EmojiRegistry)
    {pass : Pass} (hrules : pass.rules = .standard) (hdepth : 5 ≤ pass.options.maxDepth) :
    let lines := init ++ [last]
    let wide := (firstLine init last).outerSpace
    Document.ofEvents? (nestedSource lines) [] options (nestedEvents init last) registry =
      some (nestedDocument lines wide) ∧
    ∃ r, (pass.run (nestedDocument lines wide)).result = .ok r ∧
      Line.split r.text = lines.map (NestedLine.rendered wide) ∧
      (r.text = nestedSource lines ↔ ∀ l ∈ lines, l.outerSpace = wide) ∧
      ((∀ l ∈ lines, (l.readInner wide).marker = true) ↔
        (wide = true → ∀ l ∈ lines, l.outerSpace = true)) := by
  intro lines wide
  obtain ⟨r, hresult, htext⟩ :=
    exists_result_of_lays hrules (NestedLine.lays_nested hrules _ wide) hdepth
  rw [Page.text_of_none rfl] at htext
  refine ⟨Document.ofEvents?_nestedSource init last hemoji hroom registry, r, hresult, ?_, ?_, ?_⟩
  · rw [htext]
    exact (NestedLine.chained_rendered lines wide).split_joined
  · rw [htext, nestedSource, String.ofList_inj,
      (NestedLine.chained_rendered lines wide).joined_inj (NestedLine.chained_line lines),
      List.map_inj_left]
    exact forall₂_congr fun l _ => l.rendered_eq_line_iff wide
  · simp only [NestedLine.marker_readInner_iff]
    exact ⟨fun h hwide l hl => h l hl hwide, fun h l hl hwide => h hwide l hl⟩

theorem text_nestedSource_iff_narrow :
    let first : NestedLine :=
      ⟨true, true, "a", by decide, by decide, by rintro c ⟨rfl⟩; decide⟩
    let last : NestedLine :=
      ⟨false, true, "b", by decide, by decide, by rintro c ⟨rfl⟩; decide⟩
    Document.ofEvents? (nestedSource ([first] ++ [last])) [] { emoji := false }
        (nestedEvents [first] last) = some (nestedDocument ([first] ++ [last]) true) ∧
    ∃ r, (Pass.run { rules := .standard } (nestedDocument ([first] ++ [last]) true)).result =
        .ok r ∧
      Line.split r.text = [⟨"> > a", .lf⟩, ⟨">b", .lf⟩] ∧
      (r.text = nestedSource ([first] ++ [last]) ↔
        ∀ l ∈ [first] ++ [last], l.outerSpace = true) ∧
      ((∀ l ∈ [first] ++ [last], (l.readInner true).marker = true) ↔
        (true = true → ∀ l ∈ [first] ++ [last], l.outerSpace = true)) := by
  intro first last
  exact text_nestedSource_iff [first] last rfl (by decide) knownEmoji rfl (by decide)

/-- The inner marker behind a narrower outer one is lost. -/
theorem text_ne_of_narrow :
    ¬∃ document r,
      Document.ofEvents? "> > a\n>> b\n" [] { emoji := false }
        [⟨.enter .blockQuote, ⟨0, 11⟩⟩, ⟨.enter .blockQuote, ⟨2, 11⟩⟩,
          ⟨.enter .paragraph, ⟨4, 11⟩⟩, ⟨.text "a", ⟨4, 5⟩⟩, ⟨.softBreak, ⟨5, 6⟩⟩,
          ⟨.text "b", ⟨9, 10⟩⟩, ⟨.leave .paragraph, ⟨4, 11⟩⟩, ⟨.leave .blockQuote, ⟨2, 11⟩⟩,
          ⟨.leave .blockQuote, ⟨0, 11⟩⟩] = some document ∧
      (Pass.run { rules := .standard } document).result = .ok r ∧
      r.text = "> > a\n>> b\n" := by
  rintro ⟨document, r, hdocument, hresult, htext⟩
  have built : Document.ofEvents? "> > a\n>> b\n" [] { emoji := false }
      [⟨.enter .blockQuote, ⟨0, 11⟩⟩, ⟨.enter .blockQuote, ⟨2, 11⟩⟩,
        ⟨.enter .paragraph, ⟨4, 11⟩⟩, ⟨.text "a", ⟨4, 5⟩⟩, ⟨.softBreak, ⟨5, 6⟩⟩,
        ⟨.text "b", ⟨9, 10⟩⟩, ⟨.leave .paragraph, ⟨4, 11⟩⟩, ⟨.leave .blockQuote, ⟨2, 11⟩⟩,
        ⟨.leave .blockQuote, ⟨0, 11⟩⟩] =
      some ⟨[.quote [.marked .lf, { marker := true, newline := .lf }]
        [.quote [.marked .lf, { newline := .lf }]
          [.paragraph [.literal "a", .lineBreak .lf false, .literal "b", .lineBreak .lf false]
            .tracked] .tracked] .tracked]⟩ := by cbv
  obtain rfl := Option.some.inj (built.symm.trans hdocument)
  have rendered : (Pass.run { rules := .standard }
      ⟨[.quote [.marked .lf, { marker := true, newline := .lf }]
        [.quote [.marked .lf, { newline := .lf }]
          [.paragraph [.literal "a", .lineBreak .lf false, .literal "b", .lineBreak .lf false]
            .tracked] .tracked] .tracked]⟩).result =
      .ok ⟨"> > a\n>b\n", [], .utf16⟩ := by cbv
  obtain rfl := Except.ok.inj (rendered.symm.trans hresult)
  exact absurd htext (by decide)

end Pass

end MarkdownSpans
