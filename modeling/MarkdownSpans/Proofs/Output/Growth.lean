import Mathlib.Data.List.Forall2
import Mathlib.Logic.Function.Iterate
import MarkdownSpans.Output.Buffer

/-!
# What writing does to a buffer

`a.Grows b` says that the text of `b` is that of `a` with a piece appended, and that the length went
up by the measure of the piece. `a.Continues b` says in addition that the open containers are the
same and that all of them gave their leads to the same number of lines. Every write continues the
buffer; opening a container and leaving it again continues it too.
-/

namespace MarkdownSpans

/-- A container has the leads it had, of which some more may be used up. -/
inductive Indent.AdvancesTo : Indent → Indent → Prop where
  | constant (lead : String) : AdvancesTo (.constant lead) (.constant lead)
  | perLine (leads : List String) {p q : Nat} (h : p ≤ q) :
    AdvancesTo (.perLine leads p) (.perLine leads q)

namespace Indent

theorem AdvancesTo.refl (i : Indent) : i.AdvancesTo i := by
  cases i with
  | constant lead => exact .constant lead
  | perLine leads position => exact .perLine leads (Nat.le_refl _)

theorem AdvancesTo.advance {i j : Indent} (h : i.AdvancesTo j) : i.AdvancesTo j.advance := by
  cases h with
  | constant lead => exact .constant lead
  | perLine leads h =>
    simp only [Indent.advance]
    split
    · exact .perLine leads (by omega)
    · exact .perLine leads h

theorem advancesTo_iterate (i : Indent) (n : Nat) : i.AdvancesTo (Indent.advance^[n] i) := by
  induction n with
  | zero => exact .refl i
  | succ n ih =>
    rw [Function.iterate_succ_apply']
    exact ih.advance

end Indent

namespace Buffer

/-- The text of `b` is that of `a` with a piece appended, and so is its length. -/
structure Grows (a b : Buffer) : Prop where
  unit : b.unit = a.unit
  newline : b.newline = a.newline
  appended : ∃ piece, b.text = a.text ++ piece ∧ b.length = a.length + a.unit.measure piece

namespace Grows

theorem refl (a : Buffer) : a.Grows a := ⟨rfl, rfl, "", by simp, by simp⟩

theorem trans {a b c : Buffer} (hab : a.Grows b) (hbc : b.Grows c) : a.Grows c := by
  obtain ⟨p, hp, hp'⟩ := hab.appended
  obtain ⟨q, hq, hq'⟩ := hbc.appended
  refine ⟨hbc.unit.trans hab.unit, hbc.newline.trans hab.newline, p ++ q, ?_, ?_⟩
  · rw [hq, hp, String.append_assoc]
  · rw [hq', hp', hab.unit, OffsetUnit.measure_append, Nat.add_assoc]

theorem length_le {a b : Buffer} (h : a.Grows b) : a.length ≤ b.length := by
  obtain ⟨p, -, hp⟩ := h.appended
  omega

/-- A buffer that grew from an empty one has the length of its text. -/
theorem length_eq {unit : OffsetUnit} {newline : Newline} {b : Buffer}
    (h : (Buffer.empty unit newline).Grows b) : b.length = unit.measure b.text := by
  obtain ⟨p, hp, hp'⟩ := h.appended
  simpa [hp, empty] using hp'

end Grows

/-- Text was appended and the open containers gave their leads to `n` lines. -/
structure Continues (a b : Buffer) : Prop extends a.Grows b where
  leads : ∃ n, b.indents = a.indents.map Indent.advance^[n]

namespace Continues

theorem refl (a : Buffer) : a.Continues a := ⟨.refl a, 0, by simp⟩

theorem trans {a b c : Buffer} (hab : a.Continues b) (hbc : b.Continues c) : a.Continues c := by
  obtain ⟨m, hm⟩ := hab.leads
  obtain ⟨n, hn⟩ := hbc.leads
  refine ⟨hab.toGrows.trans hbc.toGrows, n + m, ?_⟩
  rw [hn, hm, List.map_map, Function.iterate_add]

theorem advancesTo {a b : Buffer} (h : a.Continues b) :
    List.Forall₂ Indent.AdvancesTo a.indents b.indents := by
  obtain ⟨n, hn⟩ := h.leads
  rw [hn, List.forall₂_map_right_iff, List.forall₂_same]
  exact fun i _ => i.advancesTo_iterate n

/-- Without open containers none are opened or left. -/
theorem indents_eq_nil {a b : Buffer} (h : a.Continues b) (ha : a.indents = []) :
    b.indents = [] := by
  obtain ⟨n, hn⟩ := h.leads
  rw [hn, ha, List.map_nil]

end Continues

/-! ### Fields -/

theorem append_empty (b : Buffer) : b.append "" = b := by
  simp [append]

theorem append_append (b : Buffer) (s t : String) : (b.append s).append t = b.append (s ++ t) := by
  simp [append, String.append_assoc, Nat.add_assoc]

theorem push_text (b : Buffer) (content : String) : (b.push content).text = b.text ++ content := by
  unfold push
  split
  · simp_all
  · rfl

/-- Text that is pushed is appended; only an empty one leaves the line start. -/
theorem push_with (b : Buffer) (content : String) (value : Bool) :
    { b.push content with atLineStart := value } =
      { b.append content with atLineStart := value } := by
  unfold push
  split
  next h =>
    obtain rfl := String.isEmpty_iff.1 h
    rw [append_empty]
  next => rfl

/-- The leads that the next write puts before its text. -/
def owedLead (b : Buffer) : String := if b.atLineStart then b.pendingLead else ""

theorem pendingLead_of_nil {b : Buffer} (h : b.indents = []) : b.pendingLead = "" := by
  rw [pendingLead, h]
  rfl

theorem flushIndent_of_nil {b : Buffer} (h : b.indents = []) : b.flushIndent = b := by
  simp [flushIndent, h]

theorem flushIndent_of_open {b : Buffer} (h : b.atLineStart = false) : b.flushIndent = b := by
  simp [flushIndent, h]

theorem flushIndent_text (b : Buffer) : b.flushIndent.text = b.text ++ b.owedLead := by
  unfold owedLead
  split
  next h =>
    by_cases hindents : b.indents = []
    · rw [flushIndent_of_nil hindents, pendingLead_of_nil hindents, String.append_empty]
    · simp [flushIndent, h, hindents, append]
  next h =>
    rw [flushIndent_of_open (Bool.not_eq_true _ ▸ h), String.append_empty]

/-- Leads are written once. -/
theorem flushIndent_flushIndent (b : Buffer) : b.flushIndent.flushIndent = b.flushIndent := by
  by_cases h : b.flushIndent.atLineStart = false
  · exact flushIndent_of_open h
  · have unflushed : b.flushIndent = b := by
      unfold flushIndent at h ⊢
      split at h
      · exact absurd rfl h
      · rename_i pending
        exact if_neg pending
    rw [unflushed, unflushed]

/-- Text is written behind leads, whether they were written before or not. -/
theorem write_flushIndent (b : Buffer) {text : String} (h : text ≠ "") :
    b.flushIndent.write text = b.write text := by
  have written : text.isEmpty = false := by
    rw [← Bool.not_eq_true]
    exact fun empty => h (String.isEmpty_iff.1 empty)
  simp only [write, written, Bool.false_eq_true, if_false, flushIndent_flushIndent]

theorem writeLine_flushIndent (b : Buffer) (newline : Newline) :
    b.flushIndent.writeLine newline = b.writeLine newline := by
  simp only [writeLine, flushIndent_flushIndent]

theorem writeLine_text (b : Buffer) (newline : Newline) :
    (b.writeLine newline).text = b.text ++ b.owedLead ++ newline.text := by
  unfold writeLine
  split
  next h =>
    obtain rfl : newline = .absent := beq_iff_eq.1 h
    exact b.flushIndent_text.trans String.append_empty.symm
  next =>
    show (b.flushIndent.push newline.text).text = _
    rw [push_text, flushIndent_text]

/-! ### The operations -/

theorem continues_flushIndent (b : Buffer) : b.Continues b.flushIndent := by
  unfold flushIndent
  split
  -- A line begins: each open container gives its lead to it.
  · exact ⟨⟨rfl, rfl, b.pendingLead, rfl, rfl⟩, 1, rfl⟩
  · exact .refl b

theorem continues_push (b : Buffer) (text : String) : b.Continues (b.push text) := by
  unfold push
  split
  · exact .refl b
  · exact ⟨⟨rfl, rfl, text, rfl, rfl⟩, 0, by simp [append]⟩

theorem continues_write (b : Buffer) (text : String) : b.Continues (b.write text) := by
  unfold write
  split
  · exact .refl b
  · exact b.continues_flushIndent.trans (continues_push _ text)

theorem continues_writeChar (b : Buffer) (c : Char) : b.Continues (b.writeChar c) :=
  b.continues_flushIndent.trans (continues_push _ _)

/-- Where the next line starts is not part of what continues. -/
theorem Continues.atLineStart {a b : Buffer} (h : a.Continues b) (value : Bool) :
    a.Continues { b with atLineStart := value } :=
  ⟨⟨h.unit, h.newline, h.appended⟩, h.leads⟩

theorem continues_writeLine (b : Buffer) (newline : Newline) :
    b.Continues (b.writeLine newline) := by
  unfold writeLine
  split
  · exact b.continues_flushIndent
  · exact (b.continues_flushIndent.trans (continues_push _ newline.text)).atLineStart true

theorem continues_writeDefaultLine (b : Buffer) : b.Continues b.writeDefaultLine :=
  b.continues_writeLine b.newline

theorem continues_ensureLine (b : Buffer) : b.Continues b.ensureLine := by
  unfold ensureLine
  split
  · exact .refl b
  · exact (b.continues_push b.newline.text).atLineStart true

/-- Opening a container writes nothing. -/
theorem grows_pushIndent (b : Buffer) (i : Indent) : b.Grows (b.pushIndent i) :=
  ⟨rfl, rfl, "", by simp [pushIndent], by simp [pushIndent]⟩

/-- Leaving a container writes nothing. -/
theorem grows_popIndent (b : Buffer) : b.Grows b.popIndent :=
  ⟨rfl, rfl, "", by simp [popIndent], by simp [popIndent]⟩

/-- A container that is opened and left again leaves those around it as they are. -/
theorem Continues.of_pushIndent {a b : Buffer} {i : Indent} (h : (a.pushIndent i).Continues b) :
    a.Continues b.popIndent := by
  obtain ⟨n, hn⟩ := h.leads
  refine ⟨(a.grows_pushIndent i).trans (h.toGrows.trans b.grows_popIndent), n, ?_⟩
  rw [popIndent, hn, pushIndent, List.map_append, List.map_singleton, List.dropLast_concat]

end Buffer

end MarkdownSpans
