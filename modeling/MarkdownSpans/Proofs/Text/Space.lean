import Mathlib.Data.List.DropRight
import MarkdownSpans.Text.Space

/-!
# The end of a list

What runs spells out how the end of a list is dropped or taken; here these are the functions of the
library, `List.rdropWhile` and `List.rtakeWhile`.
-/

namespace MarkdownSpans

variable {α : Type} {p : α → Bool} {as bs : List α} {a : α}

theorem dropRightWhile_eq_rdropWhile (p : α → Bool) (as : List α) :
    dropRightWhile p as = as.rdropWhile p := rfl

theorem takeRightWhile_eq_rtakeWhile (p : α → Bool) (as : List α) :
    takeRightWhile p as = as.rtakeWhile p := rfl

/-- What is left does not end with an element of the class. -/
theorem eq_false_of_mem_getLast?_rdropWhile (h : a ∈ (as.rdropWhile p).getLast?) :
    p a = false := by
  obtain ⟨hne, rfl⟩ := List.mem_getLast?_eq_getLast h
  simpa using List.rdropWhile_last_not p as hne

/-- Elements of a class behind others that do not end with one are dropped. -/
theorem rdropWhile_append_of_pos (has : ∀ a ∈ as.getLast?, p a = false)
    (hbs : ∀ b ∈ bs, p b = true) : (as ++ bs).rdropWhile p = as := by
  rw [List.rdropWhile, List.reverse_append, List.dropWhile_append_of_pos (by simpa using hbs)]
  exact List.rdropWhile_eq_self_iff.2 fun hne => by
    simp [has _ (List.getLast?_eq_some_getLast hne)]

/-- Elements of a class behind others that do not end with one are taken. -/
theorem rtakeWhile_append_of_pos (has : ∀ a ∈ as.getLast?, p a = false)
    (hbs : ∀ b ∈ bs, p b = true) : (as ++ bs).rtakeWhile p = bs := by
  have cut := List.rdropWhile_append_rtakeWhile (p := p) (l := as ++ bs)
  rw [rdropWhile_append_of_pos has hbs] at cut
  exact List.append_cancel_left cut

end MarkdownSpans
