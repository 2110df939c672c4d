import MarkdownSpans.Proofs.Render.Indented
import MarkdownSpans.Proofs.Render.Spans
import MarkdownSpans.Proofs.Tree.Layout

/-!
# Lines on pages

Paragraphs of plain lines and recorded lines add just these lines to the page
(`Page.writeLines`), behind what the line that goes on holds already. The text of a document is that
of the page which its block leads to from the empty page (`Pass.exists_result_of_lays`).
-/

namespace MarkdownSpans

namespace Page

/-- Write lines, each with its terminator. -/
def writeLines (p : Page) (lines : List Line) : Page :=
  lines.foldl (fun p line => (p.write line.text).writeLine line.newline) p

variable {p : Page}

@[simp] theorem writeLines_nil : p.writeLines [] = p := rfl

theorem writeLines_cons (line : Line) (rest : List Line) :
    p.writeLines (line :: rest) =
      ((p.write line.text).writeLine line.newline).writeLines rest := rfl

theorem write_of_some {before : String} (h : p.current = some before) (text : String) :
    p.write text = { p with current := some (before ++ text) } := by
  unfold write
  by_cases hempty : text.isEmpty
  · obtain rfl : text = "" := by simpa using hempty
    rw [if_pos hempty, String.append_empty, ← h]
  · rw [if_neg hempty, begin_of_some h, append, h]
    rfl

theorem write_of_none (h : p.current = none) {text : String} (hne : text ≠ "") :
    p.write text =
      { p with
        current := some (leadsAt p.inner 0 ++ text)
        inner := p.inner.map Indent.advance } := by
  rw [write, if_neg (by simpa using hne), begin_of_none h, append]
  rfl

theorem writeLine_of_some {content : String} (h : p.current = some content) (newline : Newline) :
    p.writeLine newline =
      { p with done := p.done ++ [⟨content, newline⟩], current := none } := by
  rw [writeLine, begin_of_some h, finish, h]
  rfl

/-- A line goes behind what was written of it before. -/
theorem writeLines_of_some {before : String} (h : p.current = some before) (text : String)
    (newline : Newline) :
    p.writeLines [⟨text, newline⟩] =
      { p with done := p.done ++ [⟨before ++ text, newline⟩], current := none } := by
  rw [writeLines_cons, write_of_some h, writeLine_of_some rfl, writeLines_nil]

/-- The text of finished lines without leads. -/
theorem text_of_none (h : p.current = none) :
    (p.text fun _ => "") = String.ofList (Line.joined p.done) := by
  have written : (p.done.mapIdx fun _ line => "" ++ line.written) = p.done.map Line.written :=
    List.ext_getElem (by simp) (by simp)
  rw [text, h, written, ← String.toList_inj]
  simp only [String.append_empty, String.toList_join, List.flatMap_map, Line.written,
    String.toList_append, Newline.toList_text, String.toList_ofList]
  rfl

end Page

namespace Program.Lays

variable {pass : Pass} {newline : Newline} {n : Nat} {last : Bool} {page page' : Page}

theorem noLinesBefore {trivia : Trivia} (h : trivia.linesBefore = none) :
    Lays pass newline n (.linesBefore trivia) last page page := by
  rw [Program.linesBefore, h]
  exact .done

theorem lines {ls : List Line} (h : ∀ line ∈ ls, line.newline.HasFeed) :
    Lays pass newline n (.lines ls) last page (page.writeLines ls) := by
  induction ls generalizing page with
  | nil => exact .done
  | cons line rest ih =>
    obtain ⟨hline, hrest⟩ := List.forall_mem_cons.1 h
    exact .seq (.write line.text) (.seq (.writeLine hline) (ih hrest))

theorem linesAfter {trivia : Trivia} {ls : List Line} (htrivia : trivia.linesAfter = some ls)
    (h : ∀ line ∈ ls, line.newline.HasFeed) :
    Lays pass newline n (.linesAfter trivia) last page (page.writeLines ls) := by
  rw [Program.linesAfter, htrivia]
  exact .lines h

theorem noLinesAfter {trivia : Trivia} (h : trivia.linesAfter = some []) :
    Lays pass newline n (.linesAfter trivia) last page page := .linesAfter h nofun

/-- The inlines of lines add these lines to the page. -/
theorem inlineLines (hrules : pass.rules = .standard) {ls : List Line}
    (h : ∀ line ∈ ls, line.newline.HasFeed) :
    Lays pass newline (n + 1) (.inlines (ls.flatMap Line.inlines)) last page
      (page.writeLines ls) := by
  induction ls generalizing page with
  | nil => exact .done
  | cons line rest ih =>
    obtain ⟨hline, hrest⟩ := List.forall_mem_cons.1 h
    rw [List.flatMap_cons, Line.inlines_of_ne_absent hline.ne_absent]
    exact .seq (.render hrules rfl (.write line.text))
      (.seq (.render hrules rfl (.writeLine hline)) (ih hrest))

/-- A paragraph adds its lines to the page. -/
theorem paragraph (hrules : pass.rules = .standard) {ls : List Line}
    (h : ∀ line ∈ ls, line.newline.HasFeed) :
    Lays pass newline (n + 2)
      (.render (.block (.paragraph (ls.flatMap Line.inlines) .tracked))) last page
      (page.writeLines ls) := by
  refine .render hrules rfl ?_
  exact .seq (.noLinesBefore rfl) <| .seq (.write "") <| .seq (.inlineLines hrules h) <|
    .seq (.noLinesAfter rfl) .done

end Program.Lays

/-- **The text of a document of one block is the text of the page that the block leads to**, without
leads. -/
theorem Pass.exists_result_of_lays {pass : Pass} {b : Block} {n : Nat} {page : Page}
    (hrules : pass.rules = .standard)
    (h : Program.Lays pass pass.options.newline n (.render (.block b)) true {} page)
    (hdepth : n + 1 ≤ pass.options.maxDepth) :
    ∃ r, (pass.run ⟨[b]⟩).result = .ok r ∧ r.text = page.text fun _ => "" := by
  have empty : (Context.start pass.options).buffer.Shows pass.options.newline "" [] {} :=
    ⟨rfl, rfl, rfl, rfl⟩
  have document : Program.Lays pass pass.options.newline (n + 1) (.render (.document ⟨[b]⟩)) true {}
      page := .render hrules rfl (.seq (.withLast h) .done)
  obtain ⟨d, hrun, -, -, hd⟩ :=
    document pass.options.maxDepth "" [] (.start pass.options) hdepth
      (by simpa [Context.start] using hdepth) rfl empty
  have outcome : pass.outcome ⟨[b]⟩ = d.ok := hrun
  refine ⟨_, by rw [Pass.result_run, outcome]; rfl, ?_⟩
  exact hd.text.trans String.empty_append

end MarkdownSpans
