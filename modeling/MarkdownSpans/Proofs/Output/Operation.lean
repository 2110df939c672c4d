import MarkdownSpans.Proofs.Output.Growth
import MarkdownSpans.Proofs.Text.Lines

/-!
# Buffers under any operations

`Buffer.Operation` lists what can be done to a buffer. No order of operations brings its parts out
of step: the length is that of the text, the text only grows, and a buffer that is at a line start
has no text or a line end before it (`Buffer.run_empty`).
-/

namespace MarkdownSpans

namespace Buffer

/-- One use of a buffer. -/
inductive Operation where
  | write (text : String)
  | writeChar (c : Char)
  | writeLine (newline : Newline)
  | writeDefaultLine
  | ensureLine
  | flushIndent
  | pushIndent (indent : Indent)
  | popIndent
  deriving DecidableEq, Repr

/-- Use a buffer once. -/
def Operation.apply (b : Buffer) : Operation → Buffer
  | write text => b.write text
  | writeChar c => b.writeChar c
  | writeLine newline => b.writeLine newline
  | writeDefaultLine => b.writeDefaultLine
  | ensureLine => b.ensureLine
  | flushIndent => b.flushIndent
  | pushIndent indent => b.pushIndent indent
  | popIndent => b.popIndent

/-- Use a buffer again and again. -/
def run (b : Buffer) (operations : List Operation) : Buffer := operations.foldl Operation.apply b

/-! ### Growth -/

theorem grows_apply (b : Buffer) (o : Operation) : b.Grows (o.apply b) := by
  cases o with
  | write text => exact (b.continues_write text).toGrows
  | writeChar c => exact (b.continues_writeChar c).toGrows
  | writeLine newline => exact (b.continues_writeLine newline).toGrows
  | writeDefaultLine => exact b.continues_writeDefaultLine.toGrows
  | ensureLine => exact b.continues_ensureLine.toGrows
  | flushIndent => exact b.continues_flushIndent.toGrows
  | pushIndent indent => exact b.grows_pushIndent indent
  | popIndent => exact b.grows_popIndent

theorem grows_run (b : Buffer) (operations : List Operation) : b.Grows (b.run operations) := by
  induction operations generalizing b with
  | nil => exact .refl b
  | cons o rest ih => exact (b.grows_apply o).trans (ih (o.apply b))

/-! ### Line starts -/

/-- At a line start there is no text, or a line end is the last of it. -/
def Settled (b : Buffer) : Prop := b.atLineStart = true → EndsLine b.text.toList

namespace Settled

variable {b : Buffer}

/-- A buffer in the middle of a line. -/
theorem of_open (h : b.atLineStart = false) : b.Settled := by
  intro start
  rw [h] at start
  cases start

/-- What was pushed goes on a line. -/
theorem push (b : Buffer) {text : String} (h : text ≠ "") : (b.push text).Settled := by
  apply of_open
  have filled : text.isEmpty = false := by
    rw [← Bool.not_eq_true, String.isEmpty_iff]
    exact h
  rw [Buffer.push, if_neg (by simp [filled])]

/-- A terminator was appended. -/
theorem of_newline {newline : Newline} (h : newline ≠ .absent) (value : Bool) :
    ({ b.push newline.text with atLineStart := value } : Buffer).Settled := by
  intro _
  show EndsLine (b.push newline.text).text.toList
  rw [push_text, String.toList_append, Newline.toList_text]
  exact .newline h _

theorem flushIndent (h : b.Settled) : b.flushIndent.Settled := by
  unfold Buffer.flushIndent
  split
  -- The leads begin a line.
  · exact of_open rfl
  · exact h

theorem write (h : b.Settled) (text : String) : (b.write text).Settled := by
  unfold Buffer.write
  split
  · exact h
  next filled => exact push _ fun hempty => filled (String.isEmpty_iff.2 hempty)

theorem writeLine (h : b.Settled) (newline : Newline) : (b.writeLine newline).Settled := by
  unfold Buffer.writeLine
  split
  · exact h.flushIndent
  next present => exact of_newline (fun habsent => present (beq_iff_eq.2 habsent)) true

theorem ensureLine (h : b.Settled) (hnewline : b.newline ≠ .absent) : b.ensureLine.Settled := by
  unfold Buffer.ensureLine
  split
  · exact h
  · exact of_newline hnewline true

/-- No operation leaves a line start where no line ended. -/
theorem apply (h : b.Settled) (hnewline : b.newline ≠ .absent) (o : Operation) :
    (o.apply b).Settled := by
  cases o with
  | write text => exact h.write text
  | writeChar c => exact push _ (by simp [← String.toList_inj])
  | writeLine newline => exact h.writeLine newline
  | writeDefaultLine => exact h.writeLine b.newline
  | ensureLine => exact h.ensureLine hnewline
  | flushIndent => exact h.flushIndent
  | pushIndent indent => exact h
  | popIndent => exact h

theorem run (h : b.Settled) (hnewline : b.newline ≠ .absent) (operations : List Operation) :
    (b.run operations).Settled := by
  induction operations generalizing b with
  | nil => exact h
  | cons o rest ih =>
    apply ih (h.apply hnewline o)
    rw [(b.grows_apply o).newline]
    exact hnewline

end Settled

/-- Only the empty text leaves a buffer as it is. -/
theorem write_eq_self_iff {b : Buffer} {text : String} : b.write text = b ↔ text = "" := by
  constructor
  · intro unchanged
    by_contra hne
    have filled : ¬text.isEmpty = true := fun hempty => hne (String.isEmpty_iff.1 hempty)
    have grown : (b.write text).text = b.text ++ b.owedLead ++ text := by
      rw [Buffer.write, if_neg filled, push_text, flushIndent_text]
    have sizes := congrArg String.length grown
    rw [unchanged, String.length_append, String.length_append] at sizes
    have : text.length ≠ 0 := by simpa using hne
    omega
  · rintro rfl
    rfl

/-- **The parts of a buffer stay in step.** Whatever is done to a new buffer, with whatever leads:
its length is the measure of its text, nothing that comes later changes the text that is there, a
buffer with a terminator of its own that is at a line start is empty or ends with a line end, and
writing a text leaves the buffer as it is, with the places of all leads, if and only if the text is
empty. -/
theorem run_empty (unit : OffsetUnit) (newline : Newline) (operations : List Operation) :
    let b := (empty unit newline).run operations
    b.length = unit.measure b.text ∧
      (∀ more, ∃ piece, ((empty unit newline).run (operations ++ more)).text = b.text ++ piece) ∧
      (newline ≠ .absent → b.atLineStart = true →
        b.text = "" ∨ (∃ front, b.text = front ++ "\n") ∨ ∃ front, b.text = front ++ "\r") ∧
      ∀ text, b.write text = b ↔ text = "" := by
  intro b
  refine ⟨((empty unit newline).grows_run operations).length_eq, ?_, ?_, ?_⟩
  · intro more
    have later : (empty unit newline).run (operations ++ more) = b.run more := List.foldl_append
    obtain ⟨piece, hpiece, -⟩ := (b.grows_run more).appended
    exact ⟨piece, later ▸ hpiece⟩
  · intro hnewline start
    have settled : (empty unit newline).Settled := fun _ => .nil
    have ends : EndsLine b.text.toList := settled.run hnewline operations start
    rcases List.eq_nil_or_concat b.text.toList with hnil | ⟨front, c, hlast⟩
    · exact .inl (String.toList_eq_nil_iff.1 hnil)
    · right
      have text : b.text = String.ofList front ++ String.singleton c := by
        rw [← String.toList_inj, hlast]
        simp
      have lineEnd : c = '\n' ∨ c = '\r' := by
        simpa [isLineEnd] using ends c (by simp [hlast])
      rcases lineEnd with rfl | rfl
      · exact .inl ⟨_, text⟩
      · exact .inr ⟨_, text⟩
  · intro text
    exact write_eq_self_iff

end Buffer

end MarkdownSpans
