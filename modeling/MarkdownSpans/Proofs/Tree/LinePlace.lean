import Mathlib.Algebra.GroupWithZero.Nat
import MarkdownSpans.Proofs.Text.Lines
import MarkdownSpans.Proofs.Tree.Place

/-!
# Places between lines

The source is given by its lines. The starts of the lines, the end of a block that reaches over some
of them and the lines that stand between two blocks are found exactly where they are.
-/

namespace MarkdownSpans

open Line (Chained joined)

/-- The number of bytes of some lines. -/
def Line.size (lines : List Line) : Nat := byteLength (joined lines)

open Line (size)

@[simp] theorem Line.size_nil : size [] = 0 := rfl

@[simp] theorem Line.size_append (a b : List Line) : size (a ++ b) = size a + size b := by
  simp [size]

theorem Line.sum_byteLength_chars (lines : List Line) :
    (lines.map (byteLength ·.chars)).sum = size lines := by
  induction lines with
  | nil => rfl
  | cons line rest ih => simp [size, ih]

/-! ### Ends of lines -/

namespace Newline.Ends

variable {n : Newline} {rest : List Char}

theorem leadingNewline_eq (h : n.Ends rest) : leadingNewline (n.chars ++ rest) = n := by
  cases n with
  | absent =>
    rw [h.absent rfl]
    rfl
  | lf | crlf => rfl
  | cr =>
    have head := h.cr rfl
    cases rest with
    | nil => rfl
    | cons c more =>
      show leadingNewline ('\r' :: c :: more) = .cr
      rw [leadingNewline]
      intro more' hmore
      cases hmore
      exact head rfl

theorem takeWhile_eq (h : n.Ends rest) : (n.chars ++ rest).takeWhile (!isLineEnd ·) = [] := by
  cases n with
  | absent =>
    rw [h.absent rfl]
    rfl
  | lf | crlf | cr => rfl

theorem dropWhile_eq (h : n.Ends rest) :
    (n.chars ++ rest).dropWhile (!isLineEnd ·) = n.chars ++ rest := by
  simpa [h.takeWhile_eq] using
    List.takeWhile_append_dropWhile (p := (!isLineEnd ·)) (l := n.chars ++ rest)

end Newline.Ends

/-- The end of a line is found from every place in it. -/
theorem lineEnd?_append (before : List Char) {text rest : List Char} {n : Newline}
    (htext : Unbroken text) (hn : n.Ends rest) :
    lineEnd? (before ++ (text ++ (n.chars ++ rest))) (byteLength before) =
      some ⟨byteLength before + byteLength text, n,
        byteLength before + byteLength text + n.chars.length⟩ := by
  have inside : ∀ c ∈ text, (!isLineEnd c) = true := fun c hc => by rw [htext c hc]; rfl
  rw [lineEnd?, dropBytes_append, Option.map_some, List.takeWhile_append_of_pos inside,
    List.dropWhile_append_of_pos inside, hn.takeWhile_eq, hn.dropWhile_eq, hn.leadingNewline_eq,
    List.append_nil]

/-- A block ends where its last line does, whether or not its range reaches over the terminator. -/
theorem blockEnd?_append (before : List Char) {body reached left rest : List Char} {n : Newline}
    (hbody : ∀ c ∈ body.getLast?, isLineEnd c = false) (hn : n.Ends rest)
    (hreached : n.chars = reached ++ left) :
    blockEnd? (before ++ (body ++ (n.chars ++ rest)))
        ⟨byteLength before, byteLength (before ++ (body ++ reached))⟩ =
      some ⟨byteLength (before ++ body), n, byteLength (before ++ (body ++ n.chars))⟩ := by
  have terminators : ∀ c ∈ reached, isLineEnd c = true := fun c hc =>
    Newline.isLineEnd_of_mem (hreached ▸ List.mem_append_left left hc)
  have cut : sliceChars (before ++ (body ++ (n.chars ++ rest))) (byteLength before)
      (byteLength (before ++ (body ++ reached))) = some (body ++ reached) := by
    rw [hreached]
    simpa using sliceChars_append before (body ++ reached) (left ++ rest)
  have ending := lineEnd?_append (before ++ body) .nil hn
  rw [List.nil_append, List.append_assoc] at ending
  rw [blockEnd?, cut, Option.bind_some, dropRightWhile_eq_rdropWhile,
    rdropWhile_append_of_pos hbody terminators, ← byteLength_append, ending]
  simp [Nat.add_assoc]

/-- The start of a line is found from every place in it. -/
theorem lineStart?_append {a text : List Char} (ha : EndsLine a) (htext : Unbroken text)
    (rest : List Char) :
    lineStart? (a ++ (text ++ rest)) (byteLength (a ++ text)) = some (byteLength a) := by
  have before : ∀ c ∈ a.getLast?, (!isLineEnd c) = false := fun c hc => by rw [ha c hc]; rfl
  have inside : ∀ c ∈ text, (!isLineEnd c) = true := fun c hc => by rw [htext c hc]; rfl
  rw [lineStart?, ← List.append_assoc, takeBytes_append, Option.map_some,
    takeRightWhile_eq_rtakeWhile, rtakeWhile_append_of_pos before inside, byteLength_append,
    Nat.add_sub_cancel]

/-- The start of a line is its own line's start. -/
theorem lineStart?_joined {a b : List Line} (h : Chained (a ++ b)) (hb : b ≠ []) :
    lineStart? (joined (a ++ b)) (size a) = some (size a) := by
  have start := lineStart?_append (h.endsLine hb) .nil (joined b)
  rwa [List.append_nil, List.nil_append, ← Line.joined_append] at start

/-- A block over a whole source ends with its last line that is not empty. -/
theorem blockEnd?_joined {a blanks : List Line} {line : Line} (h : Chained (a ++ line :: blanks))
    (hline : line.text ≠ "") (hblanks : ∀ blank ∈ blanks, blank.text = "") :
    blockEnd? (joined (a ++ line :: blanks)) ⟨0, size (a ++ line :: blanks)⟩ =
      some ⟨byteLength (joined a ++ line.text.toList), line.newline, size (a ++ [line])⟩ := by
  have source : joined (a ++ line :: blanks) =
      (joined a ++ line.text.toList) ++ (line.newline.chars ++ joined blanks) := by
    simp [Line.chars]
  have cut : sliceChars (joined (a ++ line :: blanks)) 0 (size (a ++ line :: blanks)) =
      some (joined (a ++ line :: blanks)) := sliceChars_whole _
  have body : ∀ c ∈ (joined a ++ line.text.toList).getLast?, isLineEnd c = false :=
    h.unbroken.getLast?_append (by simpa using hline) _
  have ends : ∀ c ∈ line.newline.chars ++ joined blanks, isLineEnd c = true := by
    intro c hc
    rcases List.mem_append.1 hc with hc | hc
    · exact Newline.isLineEnd_of_mem hc
    · obtain ⟨blank, hblank, hc⟩ := List.mem_flatMap.1 hc
      exact Newline.isLineEnd_of_mem (by simpa [Line.chars, hblanks blank hblank] using hc)
  have ending := lineEnd?_append (joined a ++ line.text.toList) .nil h.ends
  rw [List.nil_append, ← source] at ending
  rw [blockEnd?, cut, Option.bind_some, Nat.zero_add, dropRightWhile_eq_rdropWhile]
  conv_lhs => rw [source, rdropWhile_append_of_pos body ends, ← source]
  rw [ending]
  simp [size, Line.chars, Nat.add_assoc]

/-- Between two places the lines that stand there are recorded. -/
theorem gapFrom?_eq_gapLines {a g b : List Line} (h : Chained (a ++ (g ++ b))) (nested : Bool) :
    Builder.gapFrom? (joined (a ++ (g ++ b))) nested (size a) (size (a ++ g)) =
      some (gapLines nested (joined g)) := by
  have take : takeBytes (joined (a ++ (g ++ b))) (size a) = some (joined a) := by
    rw [Line.joined_append]
    exact takeBytes_append ..
  cases g with
  | nil =>
    rw [List.append_nil, IsPosition.gapFrom?_of_le (.of_takeBytes take) (Nat.le_refl _) nested]
    cases nested <;> rfl
  | cons line rest =>
    have hline : ((joined a).getLast?.map isLineEnd).getD true = true := by
      cases hlast : (joined a).getLast? with
      | none => rfl
      | some c => exact h.endsLine (by simp) c hlast
    have pos : 0 < size (line :: rest) :=
      byteLength_pos fun hnil => nomatch h.right.left.eq_nil_of_joined hnil
    have cut : sliceChars (joined (a ++ (line :: rest ++ b))) (size a) (size (a ++ line :: rest)) =
        some (joined (line :: rest)) := by
      simpa [size] using sliceChars_append (joined a) (joined (line :: rest)) (joined b)
    rw [gapFrom?_of_lineStart nested _ take hline, gapBetween?,
      if_neg (by rw [Line.size_append]; omega), cut, Option.map_some]

/-- The lines between two places are found again. -/
theorem gapFrom?_joined {a g b : List Line} (h : Chained (a ++ (g ++ b))) :
    Builder.gapFrom? (joined (a ++ (g ++ b))) false (size a) (size (a ++ g)) = some g := by
  rw [gapFrom?_eq_gapLines h, gapLines, h.right.left.split_joined]
  rfl

/-- Of the lines between two places in a container the terminators are found again. -/
theorem gapFrom?_nested {a g b : List Line} (h : Chained (a ++ (g ++ b))) :
    Builder.gapFrom? (joined (a ++ (g ++ b))) true (size a) (size (a ++ g)) =
      some (g.map fun line => .blank line.newline) := by
  rw [gapFrom?_eq_gapLines h, gapLines, h.right.left.split_joined]
  rfl

end MarkdownSpans
