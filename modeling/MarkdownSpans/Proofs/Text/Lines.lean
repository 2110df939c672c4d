import MarkdownSpans.Text.Line

/-!
# Texts put together from lines

A text that is written line by line is cut into these lines again, as long as no line holds a line
end of its own and no `\r` that ends a line meets the `\n` of the next one. `Line.Chained` says so of
a list of lines; the lines that any text is cut into are such a list, and every stretch of them is.
-/

namespace MarkdownSpans

/-- No character ends a line. -/
def Unbroken (cs : List Char) : Prop := ∀ c ∈ cs, isLineEnd c = false

instance (cs : List Char) : Decidable (Unbroken cs) :=
  decidable_of_iff (cs.all fun c => !isLineEnd c) (by simp [Unbroken])

namespace Unbroken

theorem nil : Unbroken [] := nofun

theorem append {cs ds : List Char} (hc : Unbroken cs) (hd : Unbroken ds) :
    Unbroken (cs ++ ds) := by
  intro c h
  rcases List.mem_append.1 h with h | h
  · exact hc c h
  · exact hd c h

theorem head {c : Char} {cs : List Char} (h : Unbroken (c :: cs)) : isLineEnd c = false :=
  h c (.head _)

theorem tail {c : Char} {cs : List Char} (h : Unbroken (c :: cs)) : Unbroken cs :=
  fun d hd => h d (.tail _ hd)

/-- A text that ends within a line does not end with a line end. -/
theorem getLast?_append {cs : List Char} (h : Unbroken cs) (hne : cs ≠ []) (before : List Char) :
    ∀ c ∈ (before ++ cs).getLast?, isLineEnd c = false := by
  intro c hc
  rw [List.getLast?_append, List.getLast?_eq_some_getLast hne, Option.some_or] at hc
  exact h c (List.mem_of_getLast? (by rwa [List.getLast?_eq_some_getLast hne]))

end Unbroken

namespace Line

/-- A character that ends no line belongs to the first line. -/
theorem splitChars_cons {c : Char} (h : isLineEnd c = false) (rest : List Char) :
    splitChars (c :: rest) =
      match splitChars rest with
      | [] => [([c], .absent)]
      | (text, newline) :: lines => (c :: text, newline) :: lines := by
  rw [splitChars.eq_def]
  split
  case h_5 heq =>
    cases heq
    rfl
  all_goals simp_all [isLineEnd]

/-- The last line of a text has no terminator. -/
theorem splitChars_of_unbroken {cs : List Char} (h : Unbroken cs) (hne : cs ≠ []) :
    splitChars cs = [(cs, .absent)] := by
  induction cs with
  | nil => exact absurd rfl hne
  | cons c rest ih =>
    rw [splitChars_cons h.head]
    cases rest with
    | nil => rfl
    | cons d more => rw [ih h.tail (List.cons_ne_nil d more)]

/-- A line with its terminator is cut off first. -/
theorem splitChars_append {cs rest : List Char} {n : Newline} (h : Unbroken cs)
    (hn : n ≠ .absent) (hcr : n = .cr → rest.head? ≠ some '\n') :
    splitChars (cs ++ n.chars ++ rest) = (cs, n) :: splitChars rest := by
  induction cs with
  | nil =>
    cases n with
    | absent => exact absurd rfl hn
    | lf | crlf => rfl
    | cr =>
      have head := hcr rfl
      cases rest with
      | nil => rfl
      | cons d more =>
        show splitChars ('\r' :: d :: more) = _
        rw [splitChars]
        intro more' hmore
        cases hmore
        exact head rfl
  | cons c cs ih =>
    rw [List.cons_append, List.cons_append, splitChars_cons h.head, ih h.tail]

theorem split_of_unbroken {text : String} (h : Unbroken text.toList) (hne : text ≠ "") :
    split text = [⟨text, .absent⟩] := by
  have chars : text.toList ≠ [] := fun h => hne (String.toList_inj.1 h)
  simp [split, splitChars_of_unbroken h chars]

/-- A line with its terminator is cut off first. -/
theorem split_written_append {line : Line} {rest : String} (h : Unbroken line.text.toList)
    (hn : line.newline ≠ .absent) (hcr : line.newline = .cr → rest.toList.head? ≠ some '\n') :
    split (line.written ++ rest) = line :: split rest := by
  rw [split, written, String.toList_append, String.toList_append, Newline.toList_text,
    splitChars_append h hn hcr]
  simp [split]

/-! ### Lines as splitting gives them -/

/-- The characters of a line with its terminator. -/
def chars (line : Line) : List Char := line.text.toList ++ line.newline.chars

/-- The characters of some lines one after another. -/
def joined (lines : List Line) : List Char := lines.flatMap chars

@[simp] theorem joined_nil : joined [] = [] := rfl

@[simp] theorem joined_cons (line : Line) (rest : List Line) :
    joined (line :: rest) = line.chars ++ joined rest := List.flatMap_cons

@[simp] theorem joined_append (a b : List Line) : joined (a ++ b) = joined a ++ joined b :=
  List.flatMap_append

end Line

/-- A terminator is made of line ends. -/
theorem Newline.isLineEnd_of_mem {n : Newline} {c : Char} (hc : c ∈ n.chars) :
    isLineEnd c = true := by
  cases n <;> simp [chars] at hc <;> rcases hc with rfl | rfl <;> rfl

/-- A terminator ends its line before these characters: the last line of a text alone has none, and
a `\r` before a `\n` is no terminator of its own. -/
structure Newline.Ends (n : Newline) (rest : List Char) : Prop where
  absent : n = .absent → rest = []
  cr : n = .cr → rest.head? ≠ some '\n'

theorem Newline.Ends.of_append {n : Newline} {a b : List Char} (h : n.Ends (a ++ b)) :
    n.Ends a := by
  refine ⟨fun hn => (List.append_eq_nil_iff.1 (h.absent hn)).1, fun hn hhead => h.cr hn ?_⟩
  cases a with
  | nil => cases hhead
  | cons c rest => exact hhead

namespace Line

/-- Lines that a text is cut into. -/
def Chained : List Line → Prop
  | [] => True
  | line :: rest =>
    Unbroken line.text.toList ∧ line ≠ blank .absent ∧ line.newline.Ends (joined rest) ∧
      Chained rest

namespace Chained

variable {line : Line} {a b : List Line}

theorem unbroken (h : Chained (a ++ line :: b)) : Unbroken line.text.toList := by
  induction a with
  | nil => exact h.1
  | cons first rest ih => exact ih h.2.2.2

theorem ends (h : Chained (a ++ line :: b)) : line.newline.Ends (joined b) := by
  induction a with
  | nil => exact h.2.2.1
  | cons first rest ih => exact ih h.2.2.2

theorem right (h : Chained (a ++ b)) : Chained b := by
  induction a with
  | nil => exact h
  | cons first rest ih => exact ih h.2.2.2

theorem left (h : Chained (a ++ b)) : Chained a := by
  induction a with
  | nil => trivial
  | cons first rest ih =>
    obtain ⟨hunbroken, hne, hends, hrest⟩ := h
    have ends_eq : first.newline.Ends (joined rest ++ joined b) := by simpa using hends
    exact ⟨hunbroken, hne, ends_eq.of_append, ih hrest⟩

theorem chars_ne_nil (h : line ≠ blank .absent) : line.chars ≠ [] := by
  intro hchars
  obtain ⟨text, newline⟩ := line
  obtain ⟨htext, hnewline⟩ := List.append_eq_nil_iff.1 hchars
  have text_eq : text = "" := String.toList_eq_nil_iff.1 htext
  have newline_eq : newline = .absent := by cases newline <;> simp_all [Newline.chars]
  exact h (by rw [text_eq, newline_eq]; rfl)

theorem eq_nil_of_joined (h : Chained a) (hjoined : joined a = []) : a = [] := by
  cases a with
  | nil => rfl
  | cons line rest =>
    rw [joined_cons] at hjoined
    exact absurd (List.append_eq_nil_iff.1 hjoined).1 (chars_ne_nil h.2.1)

/-- Only the last line has no terminator. -/
theorem newline_ne_absent (h : Chained (a ++ line :: b)) (hb : b ≠ []) : line.newline ≠ .absent :=
  fun habsent => hb (h.right.2.2.2.eq_nil_of_joined (h.ends.absent habsent))

theorem newlines_ne_absent (h : Chained (a ++ b)) (hb : b ≠ []) :
    ∀ line ∈ a, line.newline ≠ .absent := by
  intro line hline
  obtain ⟨before, after, rfl⟩ := List.append_of_mem hline
  rw [List.append_assoc, List.cons_append] at h
  exact h.newline_ne_absent (by simp [hb])

/-- Lines that all end with a line feed are chained. -/
theorem of_lf (h : ∀ line ∈ a, Unbroken line.text.toList ∧ line.newline = .lf) : Chained a := by
  induction a with
  | nil => trivial
  | cons line rest ih =>
    obtain ⟨⟨htext, hnewline⟩, hrest⟩ := List.forall_mem_cons.1 h
    refine ⟨htext, ?_, ⟨?_, ?_⟩, ih hrest⟩
    · rintro rfl
      cases hnewline
    · simp [hnewline]
    · simp [hnewline]

/-- Lines that are not empty and all end are chained, however they end. -/
theorem of_ne_empty (h : ∀ line ∈ a, Unbroken line.text.toList ∧ line.text ≠ "" ∧
    line.newline ≠ .absent) : Chained a := by
  induction a with
  | nil => trivial
  | cons line rest ih =>
    obtain ⟨⟨htext, -, hnewline⟩, hrest⟩ := List.forall_mem_cons.1 h
    refine ⟨htext, ?_, ⟨fun habsent => absurd habsent hnewline, fun _ => ?_⟩, ih hrest⟩
    · rintro rfl
      exact hnewline rfl
    · -- The next line begins with a character of its text.
      cases rest with
      | nil => simp
      | cons next more =>
        obtain ⟨hunbroken, hne, -⟩ := hrest next (.head _)
        cases hchars : next.text.toList with
        | nil => exact absurd (String.toList_eq_nil_iff.1 hchars) hne
        | cons c cs =>
          rw [hchars] at hunbroken
          rw [joined_cons, chars, hchars]
          rintro ⟨rfl⟩
          exact absurd hunbroken.head (by decide)

/-- A blank line goes before chained lines. -/
theorem blank_cons {n : Newline} (h : Chained a) (hn : n ≠ .absent)
    (hcr : n = .cr → (joined a).head? ≠ some '\n') : Chained (blank n :: a) :=
  ⟨nofun, fun hblank => hn (congrArg Line.newline hblank),
    ⟨fun habsent => absurd habsent hn, hcr⟩, h⟩

/-- Chained lines are found again. -/
theorem split_joined (h : Chained a) : split (String.ofList (joined a)) = a := by
  induction a with
  | nil => rfl
  | cons line rest ih =>
    obtain ⟨hunbroken, hne, hends, hrest⟩ := h
    have written : String.ofList (joined (line :: rest)) =
        line.written ++ String.ofList (joined rest) := by
      apply String.toList_inj.1
      simp [chars, Line.written, Newline.toList_text]
    by_cases hnewline : line.newline = .absent
    · obtain rfl := hrest.eq_nil_of_joined (hends.absent hnewline)
      obtain ⟨text, newline⟩ := line
      obtain rfl : newline = .absent := hnewline
      rw [written]
      simpa [Line.written, Newline.text] using
        split_of_unbroken hunbroken fun htext => hne (congrArg (Line.mk · .absent) htext)
    · rw [written, split_written_append hunbroken hnewline (by simpa using hends.cr), ih hrest]

/-- Chained lines with the same text are the same. -/
theorem joined_inj (ha : Chained a) (hb : Chained b) : joined a = joined b ↔ a = b := by
  refine ⟨fun h => ?_, congrArg joined⟩
  rw [← ha.split_joined, h, hb.split_joined]

end Chained

/-- Splitting cuts a text into chained lines. -/
theorem chained_split_ofList (cs : List Char) :
    Chained (split (String.ofList cs)) ∧ joined (split (String.ofList cs)) = cs := by
  induction cs using splitChars.induct with
  | case1 => exact ⟨trivial, rfl⟩
  | case2 rest ih =>
    have cut : split (String.ofList ('\r' :: '\n' :: rest)) =
        blank .crlf :: split (String.ofList rest) := by simp [split, splitChars, blank]
    rw [cut]
    exact ⟨ih.1.blank_cons nofun nofun, by rw [joined_cons, ih.2]; rfl⟩
  | case3 rest hrest ih =>
    have cut : split (String.ofList ('\r' :: rest)) =
        blank .cr :: split (String.ofList rest) := by
      simp [split, splitChars.eq_3 rest hrest, blank]
    have head : rest.head? ≠ some '\n' := by
      intro hhead
      obtain ⟨more, rfl⟩ := List.head?_eq_some_iff.1 hhead
      exact hrest more rfl
    rw [cut]
    exact ⟨ih.1.blank_cons nofun fun _ => by rwa [ih.2], by rw [joined_cons, ih.2]; rfl⟩
  | case4 rest ih =>
    have cut : split (String.ofList ('\n' :: rest)) = blank .lf :: split (String.ofList rest) := by
      simp [split, splitChars, blank]
    rw [cut]
    exact ⟨ih.1.blank_cons nofun nofun, by rw [joined_cons, ih.2]; rfl⟩
  | case5 c rest _ hcr hlf hnil ih =>
    have inside : isLineEnd c = false := by simpa [isLineEnd] using ⟨hlf, hcr⟩
    obtain rfl : rest = [] := by simpa [split, hnil] using ih.2.symm
    have cut : split (String.ofList [c]) = [⟨String.ofList [c], .absent⟩] := by
      simp [split, splitChars_cons inside, splitChars]
    rw [cut]
    refine ⟨⟨by simpa [Unbroken] using inside, ?_, ⟨fun _ => rfl, nofun⟩, trivial⟩, ?_⟩
    · simp [blank]
    · simp [chars, Newline.chars]
  | case6 c rest _ hcr hlf text newline lines hlines ih =>
    have inside : isLineEnd c = false := by simpa [isLineEnd] using ⟨hlf, hcr⟩
    obtain ⟨more, cut, cut'⟩ : ∃ more,
        split (String.ofList rest) = ⟨String.ofList text, newline⟩ :: more ∧
        split (String.ofList (c :: rest)) = ⟨String.ofList (c :: text), newline⟩ :: more := by
      refine ⟨(split (String.ofList rest)).tail, ?_, ?_⟩
      · simp [split, hlines]
      · simp [split, splitChars_cons inside, hlines]
    rw [cut] at ih
    obtain ⟨⟨hunbroken, -, hends, hrest⟩, hjoined⟩ := ih
    rw [cut']
    refine ⟨⟨?_, by simp [blank], hends, hrest⟩, ?_⟩
    · simpa [Unbroken, inside] using hunbroken
    · rw [← hjoined]
      simp [chars]

theorem chained_split (text : String) :
    Chained (split text) ∧ joined (split text) = text.toList := by
  simpa using chained_split_ofList text.toList

end Line

/-- What follows a text starts a line. -/
def EndsLine (cs : List Char) : Prop := ∀ c ∈ cs.getLast?, isLineEnd c = true

namespace EndsLine

variable {a b : List Char}

theorem nil : EndsLine [] := nofun

theorem of_append (h : EndsLine b) (hne : b ≠ []) : EndsLine (a ++ b) := by
  intro c hc
  rw [List.getLast?_append, List.getLast?_eq_some_getLast hne, Option.some_or] at hc
  exact h c (by rwa [List.getLast?_eq_some_getLast hne])

theorem newline {n : Newline} (h : n ≠ .absent) (a : List Char) : EndsLine (a ++ n.chars) := by
  cases n with
  | absent => exact absurd rfl h
  | lf | crlf | cr =>
    exact of_append (by simp [EndsLine, Newline.chars, isLineEnd]) (by simp [Newline.chars])

end EndsLine

/-- All lines but the last have terminators. -/
theorem Line.Chained.endsLine {a b : List Line} (h : Chained (a ++ b)) (hb : b ≠ []) :
    EndsLine (joined a) := by
  induction a with
  | nil => exact .nil
  | cons first rest ih =>
    rw [joined_cons]
    cases rest with
    | nil =>
      rw [joined_nil, List.append_nil]
      exact .newline (fun habsent => hb (h.right.eq_nil_of_joined (h.2.2.1.absent habsent))) _
    | cons second more =>
      exact (ih h.2.2.2).of_append fun hnil => nomatch h.2.2.2.left.eq_nil_of_joined hnil

end MarkdownSpans
