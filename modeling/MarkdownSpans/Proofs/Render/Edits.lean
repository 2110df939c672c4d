import MarkdownSpans.Proofs.Render.Dispatch
import MarkdownSpans.Proofs.Tree.Layout

/-!
# Programs as changes of the output

Where only text is written, a program comes down to a function on the output: `Program.Edits` says
that it changes the output in this way, whatever the rest of the context is, and does nothing else.
So it opens no span and asks no interceptor, and what it writes can be found from the function
alone.
-/

namespace MarkdownSpans

namespace Buffer

/-- A line is written behind the leads that are pending, by its text or, if that is empty, by its
terminator. -/
theorem writeLine_write (b : Buffer) {line : Line} (hline : line.newline ≠ .absent) :
    (b.write line.text).writeLine line.newline =
      { b.flushIndent.append line.written with atLineStart := true } := by
  have begun : (b.write line.text).flushIndent = b.flushIndent.push line.text := by
    by_cases hempty : line.text = ""
    · rw [hempty]
      rfl
    · have written : b.write line.text =
          { b.flushIndent.append line.text with atLineStart := false } := by
        simp [write, push, hempty]
      rw [written]
      simp [flushIndent, push, hempty]
  have present : line.newline.isAbsent = false := by simpa [Newline.isAbsent] using hline
  rw [writeLine, present, begun]
  show { (b.flushIndent.push line.text).push line.newline.text with atLineStart := true } = _
  rw [push_with, Line.written, ← append_append]
  show Buffer.append { b.flushIndent.push line.text with atLineStart := true } _ = _
  rw [push_with]
  rfl

/-- At the start of a line all open containers give their leads to it. -/
theorem writeLine_write_of_lineStart {b : Buffer} (h : b.atLineStart = true) {line : Line}
    (hline : line.newline ≠ .absent) :
    (b.write line.text).writeLine line.newline =
      { b.append (b.pendingLead ++ line.written) with indents := b.indents.map .advance } := by
  rw [writeLine_write b hline, ← append_append]
  by_cases hindents : b.indents = []
  · rw [flushIndent_of_nil hindents, pendingLead_of_nil hindents, append_empty, hindents]
    simp [append, h, hindents]
  · simp [flushIndent, append, h, hindents]

/-- A line that goes on needs no leads. -/
theorem writeLine_write_of_open {b : Buffer} (h : b.atLineStart = false) {line : Line}
    (hline : line.newline ≠ .absent) :
    (b.write line.text).writeLine line.newline =
      { b.append line.written with atLineStart := true } := by
  rw [writeLine_write b hline, flushIndent_of_open h]

/-- Write lines, each with its terminator. -/
def writeLines (lines : List Line) (b : Buffer) : Buffer :=
  lines.foldl (fun b line => (b.write line.text).writeLine line.newline) b

theorem writeLines_append (a c : List Line) (b : Buffer) :
    b.writeLines (a ++ c) = (b.writeLines a).writeLines c := List.foldl_append

/-- Put leads before the lines that are written meanwhile; in the middle of a line the first of them
belongs to that line. -/
def quoted (leads : List String) (f : Buffer → Buffer) (b : Buffer) : Buffer :=
  if b.atLineStart then (f (b.pushIndent (.ofLeads leads))).popIndent
  else
    (f ((b.write (Indent.ofLeads leads).lead).pushIndent (Indent.ofLeads leads).advance)).popIndent

end Buffer

namespace Program

variable {pass : Pass} {n : Nat} {p q : Program} {f g : Buffer → Buffer}

section Run

variable {renderNode : Node → Context → Outcome} {c : Context}

/-- What changes the output alone does so in a container, too. -/
theorem run_indent (i : Indent)
    (hp : p.run pass renderNode (c.mapBuffer (·.pushIndent i)) =
      ((c.mapBuffer (·.pushIndent i)).mapBuffer f).ok) :
    (indent i p).run pass renderNode c =
      (c.mapBuffer fun b => (f (b.pushIndent i)).popIndent).ok := by
  rw [run, hp]
  rfl

/-- The lines of a quote are put before what is written in it. -/
theorem run_quoted (leads : List String)
    (hp : ∀ g, p.run pass renderNode (c.mapBuffer g) = ((c.mapBuffer g).mapBuffer f).ok) :
    (quoted leads p).run pass renderNode c = (c.mapBuffer (·.quoted leads f)).ok := by
  show (if c.buffer.atLineStart then _ else _ : Program).run pass renderNode c =
    ({ c with buffer := c.buffer.quoted leads f } : Context).ok
  unfold Buffer.quoted
  split
  · exact run_indent _ (hp _)
  · let lead := (Indent.ofLeads leads).lead
    exact run_indent (c := c.mapBuffer (·.write lead)) _ (hp fun b => (b.write lead).pushIndent _)

end Run

/-- If there is room for `n` nested nodes, the program changes the output in this way and does
nothing else. -/
def Edits (pass : Pass) (n : Nat) (p : Program) (f : Buffer → Buffer) : Prop :=
  ∀ levels (c : Context), n ≤ levels → c.depth + n ≤ pass.options.maxDepth →
    p.run pass (pass.render levels) c = (c.mapBuffer f).ok

namespace Edits

theorem done : Edits pass n .done id := fun _ _ _ _ => rfl

theorem write (text : String) : Edits pass n (.write text) (·.write text) := fun _ _ _ _ => rfl

theorem writeLine (newline : Newline) : Edits pass n (.writeLine newline) (·.writeLine newline) :=
  fun _ _ _ _ => rfl

theorem seq (hp : Edits pass n p f) (hq : Edits pass n q g) :
    Edits pass n (.seq p q) fun b => g (f b) := by
  intro levels c hlevels hdepth
  rw [run, hp levels c hlevels hdepth]
  exact hq levels (c.mapBuffer f) hlevels hdepth

theorem withLast {value : Bool} (hp : Edits pass n p f) : Edits pass n (.withLast value p) f := by
  intro levels c hlevels hdepth
  rw [run, hp levels { c with last := value } hlevels hdepth]
  rfl

theorem indent (i : Indent) (hp : Edits pass n p f) :
    Edits pass n (.indent i p) fun b => (f (b.pushIndent i)).popIndent :=
  fun levels _ hlevels hdepth => run_indent i (hp levels _ hlevels hdepth)

/-- A node is rendered by its standard rule, one level deeper. -/
theorem render {node : Node} (hrules : pass.rules = .standard) (hname : node.customName? = none)
    (hp : Edits pass n node.program f) : Edits pass (n + 1) (.render node) f := by
  intro levels c hlevels hdepth
  obtain ⟨k, rfl⟩ := Nat.exists_eq_add_of_le' hlevels
  show pass.render (k + n + 1) node c = _
  rw [Pass.render_standard hrules hname (by omega),
    hp (k + n) c.enterNode (by omega) (by show c.depth + 1 + n ≤ _; omega)]
  rfl

/-- The change may be given in another way. -/
theorem of_eq (hp : Edits pass n p f) (h : ∀ b, f b = g b) : Edits pass n p g := by
  rwa [← funext h]

theorem lines (ls : List Line) : Edits pass n (.lines ls) (·.writeLines ls) := by
  induction ls with
  | nil => exact done
  | cons line rest ih => exact (write line.text).seq ((writeLine line.newline).seq ih)

theorem linesAfter {trivia : Trivia} {ls : List Line} (h : trivia.linesAfter = some ls) :
    Edits pass n (.linesAfter trivia) (·.writeLines ls) := by
  rw [Program.linesAfter, h]
  exact lines ls

/-- Literals with a line break behind each of them write lines. -/
theorem brokenLines (hrules : pass.rules = .standard) {α : Type} (line : α → Line)
    (hard : α → Bool) (as : List α) :
    Edits pass (n + 1)
      (.inlines (as.flatMap fun a =>
        [.literal (line a).text, .lineBreak (line a).newline (hard a)]))
      (·.writeLines (as.map line)) := by
  induction as with
  | nil => exact done
  | cons a rest ih =>
    have text : Edits pass (n + 1) (.render (.inline (.literal (line a).text))) _ :=
      render hrules rfl (write (line a).text)
    have newline : Edits pass (n + 1)
        (.render (.inline (.lineBreak (line a).newline (hard a)))) _ :=
      render hrules rfl (writeLine (line a).newline)
    exact text.seq (newline.seq ih)

/-- The inlines of lines write these lines. -/
theorem inlineLines (hrules : pass.rules = .standard) {ls : List Line}
    (h : ∀ line ∈ ls, line.newline ≠ .absent) :
    Edits pass (n + 1) (.inlines (ls.flatMap Line.inlines)) (·.writeLines ls) := by
  have broken : Edits pass (n + 1) (.inlines (ls.flatMap _)) _ :=
    brokenLines hrules id (fun _ => false) ls
  rw [List.map_id] at broken
  rwa [List.flatMap_congr fun line hline => Line.inlines_of_ne_absent (h line hline)]

/-- A paragraph writes its lines between those that it recorded before it and after it. -/
theorem paragraph (hrules : pass.rules = .standard) {content : List Inline}
    {ls before after : List Line}
    (hcontent : Edits pass (n + 1) (.inlines content) (·.writeLines ls)) {trivia : Trivia}
    (hbefore : trivia.linesBefore.getD [] = before) (htext : trivia.before = "")
    (hafter : trivia.linesAfter = some after) :
    Edits pass (n + 2) (.render (.block (.paragraph content trivia)))
      (·.writeLines (before ++ ls ++ after)) := by
  refine .render hrules rfl (.of_eq ((lines _).seq <| (write _).seq <| hcontent.seq <|
    (linesAfter hafter).seq done) fun b => ?_)
  rw [hbefore, htext, Buffer.writeLines_append, Buffer.writeLines_append]
  rfl

theorem quoted (leads : List String) (hp : Edits pass n p f) :
    Edits pass n (.quoted leads p) (·.quoted leads f) :=
  fun levels _ hlevels hdepth => run_quoted leads fun _ => hp levels _ hlevels hdepth

/-- A quote with blocks puts its leads before the lines of these. -/
theorem quote (hrules : pass.rules = .standard) (recorded : List QuoteLine) {children : List Block}
    (hne : children ≠ []) (hp : Edits pass n (.blocks children) f) :
    Edits pass (n + 1) (.render (.block (.quote recorded children .tracked)))
      (·.quoted (recorded.map (·.lead)) f) := by
  obtain ⟨block, rest, rfl⟩ := List.exists_cons_of_ne_nil hne
  have content : Edits pass n (.quoted (recorded.map (·.lead)) (.blocks (block :: rest))) _ :=
    quoted _ hp
  have after : Edits pass n (.linesAfter .tracked) _ := linesAfter rfl
  have program : Edits pass n (.quote recorded (block :: rest) .tracked) _ :=
    (lines []).seq ((write "").seq (content.seq (after.seq done)))
  exact .render hrules rfl program

/-- Blocks that write lines each. -/
theorem blocks {α : Type} {block : α → Block} {ls : α → List Line} {as : List α}
    (h : ∀ a ∈ as, Edits pass n (.render (.block (block a))) (·.writeLines (ls a))) :
    Edits pass n (.blocks (as.map block)) (·.writeLines (as.flatMap ls)) := by
  induction as with
  | nil => exact done
  | cons a rest ih =>
    obtain ⟨ha, hrest⟩ := List.forall_mem_cons.1 h
    refine .of_eq (.seq (withLast ha) (ih hrest)) fun b => ?_
    rw [List.flatMap_cons, Buffer.writeLines_append]

end Edits

end Program

end MarkdownSpans
