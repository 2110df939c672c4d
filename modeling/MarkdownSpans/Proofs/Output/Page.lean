import Mathlib.Logic.Function.Iterate
import MarkdownSpans.Output.Buffer
import MarkdownSpans.Proofs.Text.Lines

/-!
# Output by lines

A `Page` is what was written since some moment, line by line and without the leads of the containers
that were open then: the lines that are finished, and the line that goes on. `Buffer.Shows` says
that a buffer has a page behind a text, each line of it with the leads of the outer containers. What
writing does to a page does not depend on the outer containers.
-/

namespace MarkdownSpans

/-! ### Leads by lines -/

/-- A terminator that ends with a line feed. -/
def Newline.HasFeed (n : Newline) : Prop := n = .lf ∨ n = .crlf

namespace Newline.HasFeed

variable {n : Newline}

instance (n : Newline) : Decidable n.HasFeed := inferInstanceAs (Decidable (n = .lf ∨ n = .crlf))

theorem ne_absent (h : n.HasFeed) : n ≠ .absent := by
  rcases h with rfl | rfl <;> decide

theorem ne_cr (h : n.HasFeed) : n ≠ .cr := by
  rcases h with rfl | rfl <;> decide

theorem text_isEmpty (h : n.HasFeed) : n.text.isEmpty = false := by
  rcases h with rfl | rfl <;> rfl

end Newline.HasFeed

/-- A line without a line end of its own, and with a terminator that ends with a line feed. -/
structure Line.Neat (line : Line) : Prop where
  text : Unbroken line.text.toList
  newline : line.newline.HasFeed

namespace Indent

/-- The lead of the line that stands `n` lines behind the next one. -/
def leadAt (n : Nat) : Indent → String
  | constant lead => lead
  | perLine leads position => leads[position + n]?.getD ""

theorem leadAt_advance (i : Indent) (n : Nat) : i.advance.leadAt n = i.leadAt (n + 1) := by
  cases i with
  | constant lead => rfl
  | perLine leads position =>
    by_cases h : position < leads.length
    · simp only [advance, if_pos h, leadAt, Nat.add_assoc, Nat.add_comm 1 n]
    · -- All leads are used up.
      have out (k : Nat) : leads[position + k]? = none := List.getElem?_eq_none (by omega)
      simp only [advance, if_neg h, leadAt, out]

theorem lead_iterate (i : Indent) (n : Nat) : (advance^[n] i).lead = i.leadAt n := by
  induction n generalizing i with
  | zero => cases i <;> rfl
  | succ n ih => rw [Function.iterate_succ_apply, ih, leadAt_advance]

/-- No lead holds a line end. -/
def Plain : Indent → Prop
  | constant lead => Unbroken lead.toList
  | perLine leads _ => ∀ lead ∈ leads, Unbroken lead.toList

theorem Plain.advance {i : Indent} (h : i.Plain) : i.advance.Plain := by
  cases i with
  | constant lead => exact h
  | perLine leads position => exact h

theorem Plain.leadAt {i : Indent} (h : i.Plain) (n : Nat) : Unbroken (i.leadAt n).toList := by
  cases i with
  | constant lead => exact h
  | perLine leads position =>
    show Unbroken (leads[position + n]?.getD "").toList
    cases hlead : leads[position + n]? with
    | none => exact .nil
    | some lead => exact h lead (List.mem_of_getElem? hlead)

end Indent

/-- The leads of some containers, outermost first, for the line that stands `n` lines behind the
next one. -/
def leadsAt (indents : List Indent) (n : Nat) : String :=
  String.join (indents.map (·.leadAt n))

theorem leadsAt_append (a b : List Indent) (n : Nat) :
    leadsAt (a ++ b) n = leadsAt a n ++ leadsAt b n := by
  simp [leadsAt, String.join_append]

theorem leadsAt_advance (indents : List Indent) (n : Nat) :
    leadsAt (indents.map .advance) n = leadsAt indents (n + 1) := by
  simp [leadsAt, Function.comp_def, Indent.leadAt_advance]

theorem leadsAt_iterate (indents : List Indent) (k n : Nat) :
    leadsAt (indents.map Indent.advance^[k]) n = leadsAt indents (n + k) := by
  induction k generalizing indents with
  | zero => simp
  | succ k ih =>
    rw [Function.iterate_succ, ← List.map_map, ih, leadsAt_advance]
    rfl

theorem Buffer.pendingLead_eq (b : Buffer) : b.pendingLead = leadsAt b.indents 0 :=
  congrArg String.join (List.map_congr_left fun i _ => i.lead_iterate 0)

theorem unbroken_leadsAt {indents : List Indent} (h : ∀ i ∈ indents, i.Plain) (n : Nat) :
    Unbroken (leadsAt indents n).toList := by
  intro c hc
  simp only [leadsAt, String.toList_join, List.mem_flatMap, List.mem_map] at hc
  obtain ⟨lead, ⟨i, hi, rfl⟩, hc⟩ := hc
  exact (h i hi).leadAt n c hc

/-! ### Pages -/

/-- What was written line by line. -/
structure Page where
  /-- The lines that are finished. -/
  done : List Line := []
  /-- The line that goes on, if the next write does not start a line. -/
  current : Option String := none
  /-- The leads of the containers that were opened, outermost first. -/
  inner : List Indent := []

namespace Page

/-- The number of lines begun. -/
def used (p : Page) : Nat := p.done.length + if p.current.isSome then 1 else 0

/-- The text of a page with a lead before each line. -/
def text (leads : Nat → String) (p : Page) : String :=
  String.join (p.done.mapIdx fun i line => leads i ++ line.written) ++
    (match p.current with
    | none => ""
    | some content => leads p.done.length ++ content)

/-- Begin a line, unless one goes on. -/
def begin (p : Page) : Page :=
  match p.current with
  | none => { p with current := some (leadsAt p.inner 0), inner := p.inner.map Indent.advance }
  | some _ => p

/-- Add to the line that goes on. -/
def append (p : Page) (content : String) : Page :=
  { p with current := p.current.map (· ++ content) }

/-- End the line that goes on. -/
def finish (p : Page) (newline : Newline) : Page :=
  { p with done := p.done ++ [⟨p.current.getD "", newline⟩], current := none }

/-- Write a text; the empty text does not begin a line. -/
def write (p : Page) (content : String) : Page :=
  if content.isEmpty then p else p.begin.append content

/-- End a line, which may be empty. -/
def writeLine (p : Page) (newline : Newline) : Page := p.begin.finish newline

/-- End the line that goes on, if there is one. -/
def ensureLine (p : Page) (newline : Newline) : Page :=
  match p.current with
  | none => p
  | some _ => p.finish newline

/-- No line is begun that is still empty. -/
def Settled (p : Page) : Prop := p.current ≠ some ""

/-- No line holds a line end, and every finished line has a terminator with a line feed. -/
structure Neat (p : Page) : Prop where
  done : ∀ line ∈ p.done, line.Neat
  current : ∀ content ∈ p.current, Unbroken content.toList
  inner : ∀ i ∈ p.inner, i.Plain

/-- Open a container. -/
def pushIndent (p : Page) (i : Indent) : Page := { p with inner := p.inner ++ [i] }

/-- Leave the innermost container. -/
def popIndent (p : Page) : Page := { p with inner := p.inner.dropLast }

variable {p : Page}

theorem begin_of_some {content : String} (h : p.current = some content) : p.begin = p := by
  unfold begin
  rw [h]

theorem begin_of_none (h : p.current = none) : p.begin =
    { p with current := some (leadsAt p.inner 0), inner := p.inner.map Indent.advance } := by
  unfold begin
  rw [h]

theorem exists_begin (p : Page) : ∃ content, p.begin.current = some content := by
  cases h : p.current with
  | none => exact ⟨_, by rw [begin_of_none h]⟩
  | some content => exact ⟨content, by rw [begin_of_some h, h]⟩

@[simp] theorem used_append (p : Page) (content : String) : (p.append content).used = p.used := by
  simp [used, append]

theorem used_finish {content : String} (h : p.current = some content) (newline : Newline) :
    (p.finish newline).used = p.used := by
  simp [used, finish, h]

/-! ### Neat pages -/

theorem neat_empty : ({} : Page).Neat := ⟨by simp, by simp, by simp⟩

theorem settled_empty : ({} : Page).Settled := by simp [Settled]

theorem Neat.begin (h : p.Neat) : p.begin.Neat := by
  cases hcurrent : p.current with
  | some content => rwa [begin_of_some hcurrent]
  | none =>
    rw [begin_of_none hcurrent]
    refine ⟨h.done, ?_, ?_⟩
    · rintro content ⟨rfl⟩
      exact unbroken_leadsAt h.inner 0
    · intro i hi
      obtain ⟨j, hj, rfl⟩ := List.mem_map.1 hi
      exact (h.inner j hj).advance

theorem Neat.append (h : p.Neat) {content : String} (hcontent : Unbroken content.toList) :
    (p.append content).Neat := by
  refine ⟨h.done, ?_, h.inner⟩
  intro text htext
  obtain ⟨before, hbefore, rfl⟩ := Option.map_eq_some_iff.1 htext
  rw [String.toList_append]
  exact (h.current before hbefore).append hcontent

theorem Neat.finish (h : p.Neat) {newline : Newline} (hnewline : newline.HasFeed) :
    (p.finish newline).Neat := by
  refine ⟨?_, nofun, h.inner⟩
  intro line hline
  rcases List.mem_append.1 hline with hline | hline
  · exact h.done line hline
  · obtain rfl := List.mem_singleton.1 hline
    refine ⟨?_, hnewline⟩
    cases hcurrent : p.current with
    | none => exact .nil
    | some content => exact h.current content hcurrent

theorem Neat.write (h : p.Neat) {content : String} (hcontent : Unbroken content.toList) :
    (p.write content).Neat := by
  unfold Page.write
  split
  · exact h
  · exact h.begin.append hcontent

theorem Neat.writeLine (h : p.Neat) {newline : Newline} (hnewline : newline.HasFeed) :
    (p.writeLine newline).Neat := h.begin.finish hnewline

theorem Neat.ensureLine (h : p.Neat) {newline : Newline} (hnewline : newline.HasFeed) :
    (p.ensureLine newline).Neat := by
  unfold Page.ensureLine
  split
  · exact h
  · exact h.finish hnewline

theorem Neat.pushIndent (h : p.Neat) {i : Indent} (hi : i.Plain) : (p.pushIndent i).Neat := by
  refine ⟨h.done, h.current, ?_⟩
  intro j hj
  rcases List.mem_append.1 hj with hj | hj
  · exact h.inner j hj
  · obtain rfl := List.mem_singleton.1 hj
    exact hi

theorem Neat.popIndent (h : p.Neat) : p.popIndent.Neat :=
  ⟨h.done, h.current, fun i hi => h.inner i (List.dropLast_subset _ hi)⟩

/-! ### Settled pages -/

/-- A line that some text was added to is not empty. -/
theorem settled_write {content : String} (h : p.Settled ∨ content ≠ "") :
    (p.write content).Settled := by
  unfold Page.write
  by_cases hempty : content.isEmpty
  · rw [if_pos hempty]
    exact h.resolve_right (by simpa using hempty)
  · rw [if_neg hempty]
    obtain ⟨before, hbefore⟩ := p.exists_begin
    simp_all [Settled, append]

theorem settled_finish (newline : Newline) : (p.finish newline).Settled := nofun

theorem Settled.ensureLine (h : p.Settled) (newline : Newline) :
    (p.ensureLine newline).Settled := by
  unfold Page.ensureLine
  split
  · exact h
  · exact settled_finish newline

/-! ### The number of containers -/

@[simp] theorem length_inner_begin (p : Page) : p.begin.inner.length = p.inner.length := by
  unfold begin
  split <;> simp

@[simp] theorem length_inner_write (p : Page) (content : String) :
    (p.write content).inner.length = p.inner.length := by
  unfold write
  split <;> simp [append]

@[simp] theorem length_inner_writeLine (p : Page) (newline : Newline) :
    (p.writeLine newline).inner.length = p.inner.length := by
  simp [writeLine, finish]

@[simp] theorem length_inner_ensureLine (p : Page) (newline : Newline) :
    (p.ensureLine newline).inner.length = p.inner.length := by
  unfold ensureLine
  split <;> simp [finish]

/-! ### Texts -/

theorem text_append {content : String} {leads : Nat → String} {before : String}
    (h : p.current = some before) : (p.append content).text leads = p.text leads ++ content := by
  simp only [text, append, h, Option.map_some, String.append_assoc]

theorem text_finish {newline : Newline} {leads : Nat → String} {before : String}
    (h : p.current = some before) :
    (p.finish newline).text leads = p.text leads ++ newline.text := by
  simp only [text, finish, h, Option.getD_some, List.mapIdx_append, List.mapIdx_cons,
    List.mapIdx_nil, String.join_append, Line.written, Nat.zero_add, String.append_assoc]
  simp

/-- The lines of a page, the line that goes on last. -/
def lines (p : Page) : List Line :=
  p.done ++ (p.current.map fun content => ⟨content, .absent⟩).toList

theorem text_eq_join (leads : Nat → String) (p : Page) :
    p.text leads = String.join (p.lines.mapIdx fun i line => leads i ++ line.written) := by
  cases h : p.current with
  | none => simp [text, lines, h]
  | some content =>
    simp [text, lines, h, List.mapIdx_append, String.join_append, Line.written, Newline.text]

/-- **A page without leads is cut into its lines.** -/
theorem split_text (hneat : p.Neat) (hsettled : p.Settled) :
    Line.split (p.text fun _ => "") = p.lines := by
  have last : Line.split (match p.current with
      | none => ""
      | some content => "" ++ content) =
      (p.current.map fun content => (⟨content, .absent⟩ : Line)).toList := by
    cases hcurrent : p.current with
    | none => rfl
    | some content =>
      have hne : content ≠ "" := fun h => hsettled (by rw [hcurrent, h])
      simpa using Line.split_of_unbroken (hneat.current content hcurrent) hne
  have finished (done : List Line) (rest : String)
      (h : ∀ line ∈ done, line.Neat) :
      Line.split (String.join (done.map Line.written) ++ rest) = done ++ Line.split rest := by
    induction done with
    | nil => simp
    | cons line more ih =>
      obtain ⟨hline, hfeed⟩ := h line (.head _)
      rw [List.map_cons, String.join_cons, String.append_assoc,
        Line.split_written_append hline hfeed.ne_absent (fun hcr => absurd hcr hfeed.ne_cr),
        ih fun line hline => h line (.tail _ hline), List.cons_append]
  have written : (p.done.mapIdx fun _ line => "" ++ line.written) = p.done.map Line.written :=
    List.ext_getElem (by simp) (by simp)
  rw [text, written, finished _ _ hneat.done, last, lines]

end Page

/-! ### Buffers -/

/-- Behind a text, the buffer has the lines of a page with the leads of the outer containers. -/
structure Buffer.Shows (newline : Newline) (base : String) (outer : List Indent) (p : Page)
    (b : Buffer) : Prop where
  text : b.text = base ++ p.text (leadsAt outer)
  indents : b.indents = outer.map Indent.advance^[p.used] ++ p.inner
  atLineStart :
    b.atLineStart = (p.current.isNone || (b.indents.isEmpty && p.current == some ""))
  newline : b.newline = newline

namespace Buffer.Shows

variable {newline : Newline} {base : String} {outer : List Indent} {p : Page} {b : Buffer}

/-- The leads that a new line is given. -/
theorem pendingLead (h : b.Shows newline base outer p) (hcurrent : p.current = none) :
    b.pendingLead = leadsAt outer p.done.length ++ leadsAt p.inner 0 := by
  have used : p.used = p.done.length := by simp [Page.used, hcurrent]
  rw [b.pendingLead_eq, h.indents, leadsAt_append, leadsAt_iterate, used, Nat.zero_add]

theorem flushIndent (h : b.Shows newline base outer p) :
    b.flushIndent.Shows newline base outer p.begin := by
  cases hcurrent : p.current with
  | some content =>
    -- The line has its leads already.
    have idle : b.flushIndent = b := by
      unfold Buffer.flushIndent
      rw [if_neg]
      simp +contextual [h.atLineStart, hcurrent]
    rwa [Page.begin_of_some hcurrent, idle]
  | none =>
    have start : b.atLineStart = true := by simp [h.atLineStart, hcurrent]
    have lead := h.pendingLead hcurrent
    have text := h.text
    have indents := h.indents
    have used : p.used = p.done.length := by simp [Page.used, hcurrent]
    have used_begin : p.begin.used = p.done.length + 1 := by
      simp [Page.begin_of_none hcurrent, Page.used]
    have text_begin : p.begin.text (leadsAt outer) =
        p.text (leadsAt outer) ++ b.pendingLead := by
      simp [Page.begin_of_none hcurrent, Page.text, hcurrent, lead]
    by_cases hnone : b.indents = []
    · -- No container is open, so the line begins with nothing at all.
      obtain ⟨houter, hinner⟩ : outer = [] ∧ p.inner = [] := by simpa [hnone] using indents
      have idle : b.flushIndent = b := by simp [Buffer.flushIndent, hnone]
      rw [idle]
      refine ⟨?_, ?_, ?_, h.newline⟩
      · rw [text_begin, text]
        simp [Buffer.pendingLead, hnone]
      · simp [hnone, houter, hinner, Page.begin_of_none hcurrent]
      · simp [start, hnone, hinner, Page.begin_of_none hcurrent, leadsAt]
    · have begun : b.flushIndent = { b.append b.pendingLead with
          atLineStart := false, indents := b.indents.map Indent.advance } := by
        simp [Buffer.flushIndent, start, hnone]
      rw [begun]
      refine ⟨?_, ?_, ?_, h.newline⟩
      · rw [text_begin, ← String.append_assoc, ← text]
        rfl
      · rw [used_begin, indents, List.map_append, List.map_map, used,
          Page.begin_of_none hcurrent]
        simp only [Function.iterate_succ']
      · simp [hnone, Page.begin_of_none hcurrent]

theorem push (h : b.Shows newline base outer p) {before content : String}
    (hcurrent : p.current = some before) (hne : content ≠ "") :
    (b.push content).Shows newline base outer (p.append content) := by
  have pushed : b.push content = { b.append content with atLineStart := false } :=
    if_neg (by simpa using hne)
  rw [pushed]
  refine ⟨?_, ?_, ?_, h.newline⟩
  · rw [Page.text_append hcurrent, ← String.append_assoc, ← h.text]
    rfl
  · rw [Page.used_append]
    exact h.indents
  · simp [Page.append, hcurrent, hne]

theorem finish (h : b.Shows newline base outer p) {before : String}
    (hcurrent : p.current = some before) {n : Newline} (hn : n.text.isEmpty = false) :
    ({ b.push n.text with atLineStart := true } : Buffer).Shows newline base outer
      (p.finish n) := by
  have pushed : b.push n.text = { b.append n.text with atLineStart := false } :=
    if_neg (by simp [hn])
  rw [pushed]
  refine ⟨?_, ?_, ?_, h.newline⟩
  · rw [Page.text_finish hcurrent, ← String.append_assoc, ← h.text]
    rfl
  · rw [Page.used_finish hcurrent]
    exact h.indents
  · simp [Page.finish]

theorem write (h : b.Shows newline base outer p) (content : String) :
    (b.write content).Shows newline base outer (p.write content) := by
  unfold Buffer.write Page.write
  by_cases hempty : content.isEmpty
  · rwa [if_pos hempty, if_pos hempty]
  · rw [if_neg hempty, if_neg hempty]
    obtain ⟨before, hbefore⟩ := p.exists_begin
    exact h.flushIndent.push hbefore (by simpa using hempty)

theorem writeChar (h : b.Shows newline base outer p) (c : Char) :
    (b.writeChar c).Shows newline base outer (p.write (String.singleton c)) := by
  have written : b.writeChar c = b.write (String.singleton c) := by
    simp [Buffer.writeChar, Buffer.write]
  rw [written]
  exact h.write _

theorem writeLine (h : b.Shows newline base outer p) {n : Newline} (hn : n.HasFeed) :
    (b.writeLine n).Shows newline base outer (p.writeLine n) := by
  obtain ⟨before, hbefore⟩ := p.exists_begin
  have written : b.writeLine n = { b.flushIndent.push n.text with atLineStart := true } := by
    rcases hn with rfl | rfl <;> rfl
  rw [written]
  exact h.flushIndent.finish hbefore hn.text_isEmpty

theorem ensureLine (h : b.Shows newline base outer p) (hsettled : p.Settled)
    (hn : newline.HasFeed) : b.ensureLine.Shows newline base outer (p.ensureLine newline) := by
  unfold Buffer.ensureLine Page.ensureLine
  cases hcurrent : p.current with
  | none =>
    have start : b.atLineStart = true := by simp [h.atLineStart, hcurrent]
    simpa [start] using h
  | some content =>
    have hne : content ≠ "" := fun hempty => hsettled (by rw [hcurrent, hempty])
    have start : b.atLineStart = false := by simp [h.atLineStart, hcurrent, hne]
    rw [start, h.newline]
    exact h.finish hcurrent hn.text_isEmpty

theorem pushIndent (h : b.Shows newline base outer p) (hsettled : p.Settled) (i : Indent) :
    (b.pushIndent i).Shows newline base outer (p.pushIndent i) := by
  refine ⟨h.text, ?_, ?_, h.newline⟩
  · show b.indents ++ [i] = _
    rw [h.indents, List.append_assoc]
    rfl
  · have settled : (p.current == some "") = false := by simpa [Page.Settled] using hsettled
    simp [Buffer.pushIndent, Page.pushIndent, h.atLineStart, settled]

theorem popIndent (h : b.Shows newline base outer p) (hsettled : p.Settled)
    (hinner : p.inner ≠ []) : b.popIndent.Shows newline base outer p.popIndent := by
  refine ⟨h.text, ?_, ?_, h.newline⟩
  · show b.indents.dropLast = _
    rw [h.indents, List.dropLast_append_of_ne_nil hinner]
    rfl
  · have settled : (p.current == some "") = false := by simpa [Page.Settled] using hsettled
    simp [Buffer.popIndent, Page.popIndent, h.atLineStart, settled]

end Buffer.Shows

end MarkdownSpans
