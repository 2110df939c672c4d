import MarkdownSpans.Proofs.Output.Page
import MarkdownSpans.Proofs.Render.Edits

/-!
# Quotes without content

Nothing in a quote without blocks would write the leads of its lines, so the quote ends its lines
itself, and each terminator brings the lead of its line along. In the middle of a line the first
lead is written in another way, ahead of the rest. In both cases every lead of the quote is written
once, behind the leads that the containers around it give to the line
(`Program.run_childlessQuote`).
-/

namespace MarkdownSpans

namespace Buffer

/-! ### Writing a terminator -/

/-- Append text and leave the rest of the state so. -/
def extend (b : Buffer) (text : String) (atLineStart : Bool) (indents : List Indent) : Buffer :=
  { b.append text with atLineStart, indents }

section Extend

variable {b : Buffer} {text : String} {start : Bool} {indents : List Indent}

theorem extend_extend (more : String) (start' : Bool) (indents' : List Indent) :
    (b.extend text start indents).extend more start' indents' =
      b.extend (text ++ more) start' indents' := by
  simp [extend, append, String.append_assoc, Nat.add_assoc]

theorem extend_empty : b.extend "" b.atLineStart b.indents = b := by
  simp [extend, append]

theorem popIndent_extend (i : Indent) :
    (b.extend text start (indents ++ [i])).popIndent = b.extend text start indents := by
  simp [extend, popIndent]

theorem extend_pushIndent (i : Indent) :
    (b.pushIndent i).extend text start indents = b.extend text start indents := rfl

/-- At the start of a line a terminator stands behind the leads of all open containers. -/
theorem writeLine_of_lineStart (h : b.atLineStart = true) (hne : b.indents ≠ []) (n : Newline) :
    b.writeLine n =
      b.extend (b.pendingLead ++ n.text) (!n.isAbsent) (b.indents.map .advance) := by
  have flushed : b.flushIndent = b.extend b.pendingLead false (b.indents.map .advance) := by
    simp [flushIndent, h, hne, extend]
  rw [writeLine, flushed]
  cases n with
  | absent => simp [Newline.isAbsent, Newline.text]
  | lf | crlf | cr =>
    simp [Newline.isAbsent, Newline.text, push, extend, append, String.append_assoc, Nat.add_assoc]

/-- In the middle of a line a terminator needs no leads. -/
theorem writeLine_of_open (h : b.atLineStart = false) (n : Newline) :
    b.writeLine n = b.extend n.text (!n.isAbsent) b.indents := by
  rw [writeLine, flushIndent_of_open h]
  cases n with
  | absent => simp [Newline.isAbsent, Newline.text, extend, append, ← h]
  | lf | crlf | cr => simp [Newline.isAbsent, Newline.text, push, extend, append]

theorem write_of_open (h : b.atLineStart = false) (text : String) :
    b.write text = b.extend text false b.indents := by
  by_cases hempty : text = ""
  · simp [write, hempty, extend, append, ← h]
  · simp [write, push, hempty, flushIndent_of_open h, extend, append]

end Extend

/-! ### The lines of a quote -/

/-- End the lines of a quote one after another. -/
def endLines (lines : List QuoteLine) (b : Buffer) : Buffer :=
  lines.foldl (fun b line => b.writeLine line.newline) b

/-- What the open containers put before the line that stands `i` lines behind the next write; a line
that goes on has its leads already. -/
def leadBefore (b : Buffer) (i : Nat) : String :=
  if b.atLineStart then leadsAt b.indents i else if i = 0 then "" else leadsAt b.indents (i - 1)

/-- How many of the next `n` lines begin behind what is written. -/
def linesBegun (b : Buffer) (n : Nat) : Nat := if b.atLineStart then n else n - 1

/-- Whether a line starts behind some lines of a quote. -/
def startsBehind (b : Buffer) (lines : List QuoteLine) : Bool :=
  match lines.getLast? with
  | none => b.atLineStart
  | some line => !line.newline.isAbsent

section Lines

variable {lines : List QuoteLine}

/-- **From the start of a line on, each line of a quote gets the leads of the outer containers and
its own one**, those before it being used. -/
theorem endLines_of_lineStart (hended : ∀ line ∈ lines.dropLast, line.newline ≠ .absent)
    {b : Buffer} (h : b.atLineStart = true) {outer : List Indent} {used : List String}
    (hindents : b.indents = outer ++ [.perLine (used ++ lines.map (·.lead)) used.length]) :
    b.endLines lines =
      b.extend
        (String.join (lines.mapIdx fun i line => leadsAt outer i ++ line.lead ++ line.newline.text))
        (b.startsBehind lines)
        (outer.map Indent.advance^[lines.length] ++
          [.perLine (used ++ lines.map (·.lead)) (used.length + lines.length)]) := by
  induction lines generalizing b outer used with
  | nil =>
    have unused : b.indents = outer ++ [.perLine used used.length] := by simpa using hindents
    simp [endLines, startsBehind, ← unused, extend_empty]
  | cons line rest ih =>
    have lead : b.pendingLead = leadsAt outer 0 ++ line.lead := by
      rw [pendingLead_eq, hindents, leadsAt_append]
      simp [leadsAt, Indent.leadAt]
    have step : b.writeLine line.newline =
        b.extend (leadsAt outer 0 ++ line.lead ++ line.newline.text) (!line.newline.isAbsent)
          (outer.map .advance ++
            [.perLine (used ++ (line :: rest).map (·.lead)) (used.length + 1)]) := by
      rw [writeLine_of_lineStart h (by simp [hindents]), lead, hindents]
      simp [Indent.advance]
    have written : b.endLines (line :: rest) = (b.writeLine line.newline).endLines rest := rfl
    cases rest with
    | nil =>
      rw [written, step]
      simp [endLines, startsBehind]
    | cons next more =>
      -- Only the last line may stay open, so the next one starts a line.
      obtain ⟨hline, hmore⟩ := List.forall_mem_cons.1 hended
      have start : (b.writeLine line.newline).atLineStart = true := by
        simpa [step, extend, Newline.isAbsent] using hline
      have later : (b.writeLine line.newline).indents = outer.map .advance ++
          [.perLine (used ++ [line.lead] ++ (next :: more).map (·.lead))
            (used ++ [line.lead]).length] := by
        simp [step, extend]
      rw [written, ih hmore start later, step, extend_extend]
      congr 1
      · simp [leadsAt_advance, List.mapIdx_cons, String.append_assoc]
      · simp [Function.comp_def]
        omega

/-- **Every line of a quote gets the leads of the containers around it and its own one**, in the
middle of a line the first of them only its own. -/
theorem quoted_endLines (hended : ∀ line ∈ lines.dropLast, line.newline ≠ .absent) (b : Buffer) :
    b.quoted (lines.map (·.lead)) (·.endLines lines) =
      b.extend
        (String.join (lines.mapIdx fun i line => b.leadBefore i ++ line.lead ++ line.newline.text))
        (b.startsBehind lines) (b.indents.map Indent.advance^[b.linesBegun lines.length]) := by
  by_cases start : b.atLineStart = true
  · have begun : (b.pushIndent (.ofLeads (lines.map (·.lead)))).atLineStart = true := start
    have opened : (b.pushIndent (.ofLeads (lines.map (·.lead)))).indents =
        b.indents ++ [.perLine ([] ++ lines.map (·.lead)) ([] : List String).length] := rfl
    rw [quoted, if_pos start, endLines_of_lineStart hended begun opened, popIndent_extend,
      extend_pushIndent]
    simp only [leadBefore, linesBegun, if_pos start]
    rfl
  · have going : b.atLineStart = false := by simpa using start
    rw [quoted, if_neg start, write_of_open going]
    cases lines with
    | nil => simp [endLines, startsBehind, linesBegun, going, extend, Indent.ofLeads, Indent.lead,
        Indent.advance, pushIndent, popIndent]
    | cons line rest =>
      let leads := (line :: rest).map (·.lead)
      let opened := (b.extend line.lead false b.indents).pushIndent (.perLine leads 1)
      have step : opened.writeLine line.newline =
          b.extend (line.lead ++ line.newline.text) (!line.newline.isAbsent)
            (b.indents ++ [.perLine leads 1]) := by
        rw [writeLine_of_open rfl, extend_pushIndent, extend_extend]
        rfl
      show ((opened.writeLine line.newline).endLines rest).popIndent = _
      cases rest with
      | nil =>
        rw [step]
        simp [endLines, popIndent_extend, startsBehind, leadBefore, linesBegun, going]
      | cons next more =>
        obtain ⟨hline, hmore⟩ := List.forall_mem_cons.1 hended
        have begun : (opened.writeLine line.newline).atLineStart = true := by
          simpa [step, extend, Newline.isAbsent] using hline
        have later : (opened.writeLine line.newline).indents = b.indents ++
            [.perLine ([line.lead] ++ (next :: more).map (·.lead)) [line.lead].length] := by
          rw [step]
          rfl
        rw [endLines_of_lineStart hmore begun later, popIndent_extend, step, extend_extend]
        congr 1
        · simp [leadBefore, going, List.mapIdx_cons, String.append_assoc]
        · simp [linesBegun, going]

end Lines

end Buffer

namespace Program

variable (pass : Pass) (renderNode : Node → Context → Outcome)

theorem run_terminators (lines : List QuoteLine) (c : Context) :
    (terminators lines).run pass renderNode c = (c.mapBuffer (·.endLines lines)).ok := by
  induction lines generalizing c with
  | nil => rfl
  | cons line rest ih => exact ih (c.mapBuffer (·.writeLine line.newline))

/-- A quote without blocks puts its leads before the terminators of its lines. -/
theorem run_quote_nil {trivia : Trivia} (hlines : trivia.linesBefore.getD [] = [])
    (htext : trivia.before = "") (recorded : List QuoteLine) (c : Context) :
    (quote recorded [] trivia).run pass renderNode c =
      (c.mapBuffer (·.quoted (recorded.map (·.lead)) (·.endLines recorded))).ok := by
  have content : (quoted (recorded.map (·.lead)) (terminators recorded)).run pass renderNode c =
      (c.mapBuffer (·.quoted (recorded.map (·.lead)) (·.endLines recorded))).ok :=
    run_quoted _ fun g => run_terminators pass renderNode recorded (c.mapBuffer g)
  rw [quote, linesBefore, hlines, htext]
  show ((quoted _ (terminators recorded)).run pass renderNode c).andThen Context.ok = _
  rw [content]
  rfl

/-- **A quote without blocks writes each of its leads once.** Run by its standard rule in any state,
at the start of a line or in the middle of one and with any containers open, a quote whose lines all
end but perhaps for the last one appends line by line what the open containers put before the line,
the lead of the line and its terminator, and nothing else; if it is opened in the middle of a line,
the containers put nothing before the first line. So the containers around the quote give their
leads to each line that begins in it, and to no other. No lines before the quote and no text before
its first marker are recorded; those behind it do not matter. -/
theorem run_childlessQuote {trivia : Trivia} (hlines : trivia.linesBefore.getD [] = [])
    (htext : trivia.before = "") {recorded : List QuoteLine}
    (hended : ∀ line ∈ recorded.dropLast, line.newline ≠ .absent) (c : Context) :
    (standardRule .quote (.block (.quote recorded [] trivia))).run pass renderNode c =
      (c.mapBuffer fun b => b.extend
        (String.join
          (recorded.mapIdx fun i line => b.leadBefore i ++ line.lead ++ line.newline.text))
        (b.startsBehind recorded)
        (b.indents.map Indent.advance^[b.linesBegun recorded.length])).ok := by
  have rule : standardRule .quote (.block (.quote recorded [] trivia)) =
      quote recorded [] trivia := rfl
  rw [rule, run_quote_nil pass renderNode hlines htext, Context.mapBuffer,
    Buffer.quoted_endLines hended]
  rfl

/-- Behind `x` the first line gets its own lead only. The second one has none of its own and gets
the last of the leads of the inner container, and the third one finds none left there. -/
theorem run_childlessQuote_midLine :
    let outer : List Indent := [.constant "  ", .perLine ["* ", "· "] 1]
    let c : Context := (Context.start {}).mapBuffer (·.extend "x" false outer)
    let recorded : List QuoteLine :=
      [{ marker := true, spaceAfter := true, newline := .cr }, { newline := .lf },
        { before := " ", marker := true }]
    recorded.map (·.lead) = ["> ", "", " >"] ∧
    (standardRule .quote (.block (.quote recorded [] {}))).run { rules := .standard }
        (fun _ c => c.ok) c =
      (c.mapBuffer (·.extend "> \r  · \n   >" false
        [.constant "  ", .perLine ["* ", "· "] 2])).ok := by
  intro outer c recorded
  refine ⟨by decide, ?_⟩
  rw [run_childlessQuote _ _ rfl rfl (by decide)]
  exact congrArg (fun buffer => ({ c with buffer } : Context).ok) (by decide)

end Program

end MarkdownSpans
