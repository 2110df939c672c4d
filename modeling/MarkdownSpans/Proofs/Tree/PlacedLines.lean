import Mathlib.Data.List.Pairwise
import MarkdownSpans.Proofs.Tree.LinePlace

/-!
# The lines of a source at their places

A source is looked at in two ways: it is cut into lines from its start, and lines are searched from
any position of it, backwards for their starts and forwards for their ends. `Line.scans_agree` says
that the searches find the lines that the cut gives.
-/

namespace MarkdownSpans

open Line (Chained joined size)

/-! ### Lines laid out -/

/-- A line and the position at which it starts. -/
structure PlacedLine where
  line : Line
  start : Nat
  deriving DecidableEq, Repr

namespace PlacedLine

/-- The position behind the text of the line. -/
def contentStop (p : PlacedLine) : Nat := p.start + byteLength p.line.text.toList

/-- The position behind the terminator of the line. -/
def stop (p : PlacedLine) : Nat := p.contentStop + p.line.newline.chars.length

/-- The position is in the line; the place behind a terminator is in the next line. -/
def Contains (p : PlacedLine) (n : Nat) : Prop :=
  p.start ≤ n ∧ (n < p.stop ∨ p.line.newline = .absent ∧ n = p.stop)

/-- What the search for the end of the line gives. -/
def lineEnd (p : PlacedLine) : LineEnd := ⟨p.contentStop, p.line.newline, p.stop⟩

theorem stop_eq (p : PlacedLine) : p.stop = p.start + byteLength p.line.chars := by
  simp [stop, contentStop, Line.chars, Nat.add_assoc]

end PlacedLine

namespace Line

/-- Lines one behind another. -/
def laidOut (start : Nat) : List Line → List PlacedLine
  | [] => []
  | line :: rest => ⟨line, start⟩ :: laidOut (start + byteLength line.chars) rest

/-- The empty line at the end of a text that is empty or ends with a terminator. -/
def behind (cs : List Char) : List Line := if cs.getLast?.all isLineEnd then [blank .absent] else []

/-- The lines of a source up to its end. -/
def toEnd (source : String) : List Line := split source ++ behind source.toList

/-- The lines of a source at their places. -/
def placed (source : String) : List PlacedLine := laidOut 0 (toEnd source)

theorem mem_laidOut_append (a b : List Line) (line : Line) (start : Nat) :
    ⟨line, start + size a⟩ ∈ laidOut start (a ++ line :: b) := by
  induction a generalizing start with
  | nil => exact .head _
  | cons first rest ih =>
    have shift : start + size (first :: rest) =
        start + byteLength first.chars + size rest := by
      simp [size, Nat.add_assoc]
    rw [shift]
    exact .tail _ (ih _)

theorem le_start_of_mem_laidOut {lines : List Line} {start : Nat} {p : PlacedLine}
    (h : p ∈ laidOut start lines) : start ≤ p.start := by
  induction lines generalizing start with
  | nil => cases h
  | cons line rest ih =>
    rcases List.mem_cons.1 h with rfl | h
    · exact Nat.le_refl _
    · have := ih h
      omega

/-! ### Lines up to the end -/

/-- Lines of which all but the last one end, and the last one does not. -/
inductive Full : List Line → Prop where
  | last {line : Line} (unbroken : Unbroken line.text.toList) (absent : line.newline = .absent) :
    Full [line]
  | cons {line : Line} {rest : List Line} (unbroken : Unbroken line.text.toList)
    (present : line.newline ≠ .absent) (ends : line.newline.Ends (joined rest)) (h : Full rest) :
    Full (line :: rest)

theorem joined_behind (cs : List Char) : joined (behind cs) = [] := by
  unfold behind
  split <;> rfl

theorem full_blank : Full [blank .absent] := .last .nil rfl

theorem Chained.full {lines : List Line} (h : Chained lines) :
    Full (lines ++ behind (joined lines)) := by
  induction lines with
  | nil => exact full_blank
  | cons line rest ih =>
    obtain ⟨hunbroken, hne, hends, hrest⟩ := h
    by_cases hnil : rest = []
    · subst hnil
      rw [joined_cons, joined_nil, List.append_nil, List.singleton_append]
      by_cases habsent : line.newline = .absent
      · -- The line ends with a character of its text.
        have text : line.chars = line.text.toList := by simp [chars, habsent, Newline.chars]
        have last := List.getLast?_eq_some_getLast (chars_ne_nil hne)
        have inside := hunbroken _ (text.subst (List.mem_of_getLast? last))
        have nothing : behind line.chars = [] := by simp [behind, last, inside]
        rw [nothing]
        exact .last hunbroken habsent
      · have lineEnd : EndsLine line.chars := .newline habsent _
        have empty : behind line.chars = [blank .absent] := by
          simpa [behind, EndsLine, Option.all_eq_true] using lineEnd
        rw [empty]
        exact .cons hunbroken habsent hends full_blank
    · have filled : joined rest ≠ [] := fun hjoined => hnil (hrest.eq_nil_of_joined hjoined)
      have same : behind (joined (line :: rest)) = behind (joined rest) := by
        rw [behind, behind, joined_cons, List.getLast?_append,
          List.getLast?_eq_some_getLast filled, Option.some_or]
      have present : line.newline ≠ .absent := fun habsent => filled (hends.absent habsent)
      have ends : line.newline.Ends (joined (rest ++ behind (joined rest))) := by
        rwa [joined_append, joined_behind, List.append_nil]
      rw [same]
      exact .cons hunbroken present ends (ih hrest)

theorem full_toEnd (source : String) :
    Full (toEnd source) ∧ joined (toEnd source) = source.toList := by
  obtain ⟨chained, hjoined⟩ := chained_split source
  constructor
  · have full := chained.full
    rwa [hjoined] at full
  · rw [toEnd, joined_append, joined_behind, List.append_nil, hjoined]

/-- A line that ends starts behind the end of every line before it. -/
theorem Full.pairwise_laidOut {lines : List Line} (h : Full lines) (start : Nat) :
    (laidOut start lines).Pairwise fun p q => p.line.newline ≠ .absent ∧ p.stop ≤ q.start := by
  induction h generalizing start with
  | last unbroken absent => exact List.pairwise_singleton _ _
  | cons unbroken present ends h ih =>
    refine List.pairwise_cons.2 ⟨?_, ih _⟩
    intro q hq
    have := le_start_of_mem_laidOut hq
    exact ⟨present, by rwa [PlacedLine.stop_eq]⟩

/-- No two lines contain the same position. -/
theorem Full.eq_of_contains {lines : List Line} (h : Full lines) {p q : PlacedLine} {n : Nat}
    (hp : p ∈ laidOut 0 lines) (hq : q ∈ laidOut 0 lines) (hpn : p.Contains n)
    (hqn : q.Contains n) : p = q := by
  have apart {p q : PlacedLine} (hp : p.Contains n) (hq : q.Contains n)
      (before : p.line.newline ≠ .absent ∧ p.stop ≤ q.start) : False := by
    obtain ⟨present, hle⟩ := before
    obtain ⟨-, hlt | ⟨absent, -⟩⟩ := hp
    · have := hq.1
      omega
    · exact present absent
  have before := List.pairwise_iff_getElem.1 (h.pairwise_laidOut 0)
  obtain ⟨i, hi, rfl⟩ := List.getElem_of_mem hp
  obtain ⟨j, hj, rfl⟩ := List.getElem_of_mem hq
  rcases Nat.lt_trichotomy i j with hlt | rfl | hlt
  · exact (apart hpn hqn (before i j hi hj hlt)).elim
  · rfl
  · exact (apart hqn hpn (before j i hj hi hlt)).elim

/-! ### Searching from a position -/

/-- A position between two characters of a source that is not inside of a terminator. -/
def IsPlace (source : List Char) (n : Nat) : Prop :=
  ∃ before after, source = before ++ after ∧ byteLength before = n ∧
    ¬(before.getLast? = some '\r' ∧ after.head? = some '\n')

/-- A place behind the start of a terminator is behind its end. -/
theorem exists_of_terminator_append {n : Newline} (present : n ≠ .absent)
    {rest beyond after : List Char} (hcut : n.chars ++ rest = beyond ++ after) (hne : beyond ≠ [])
    (whole : ¬(beyond.getLast? = some '\r' ∧ after.head? = some '\n')) :
    ∃ more, beyond = n.chars ++ more ∧ rest = more ++ after := by
  obtain ⟨c, more, rfl⟩ := List.exists_cons_of_ne_nil hne
  cases n with
  | absent => exact absurd rfl present
  | lf | cr =>
    obtain ⟨rfl, hmore⟩ := List.cons.inj hcut
    exact ⟨more, rfl, hmore⟩
  | crlf =>
    obtain ⟨rfl, hfeed⟩ := List.cons.inj hcut
    cases more with
    | nil =>
      obtain rfl : '\n' :: rest = after := hfeed
      exact absurd ⟨rfl, rfl⟩ whole
    | cons d more =>
      obtain ⟨rfl, hmore⟩ := List.cons.inj hfeed
      exact ⟨more, rfl, hmore⟩

/-- The line of a place: what stands of it before the place and behind it. -/
theorem Full.exists_line {lines : List Line} (h : Full lines) {before after : List Char}
    (hcut : joined lines = before ++ after)
    (whole : ¬(before.getLast? = some '\r' ∧ after.head? = some '\n')) :
    ∃ a line b left right, lines = a ++ line :: b ∧ line.text.toList = left ++ right ∧
      before = joined a ++ left ∧ after = right ++ (line.newline.chars ++ joined b) ∧
      EndsLine (joined a) ∧ Unbroken line.text.toList ∧ line.newline.Ends (joined b) := by
  induction h generalizing before with
  | @last line unbroken absent =>
    have text : joined [line] = line.text.toList := by simp [chars, absent, Newline.chars]
    rw [text] at hcut
    have ends : line.newline.Ends (joined []) :=
      { absent := fun _ => rfl, cr := by simp [absent] }
    refine ⟨[], line, [], before, after, rfl, hcut, rfl, ?_, .nil, unbroken, ends⟩
    simp [absent, Newline.chars]
  | @cons line rest unbroken present ends h ih =>
    have here {left right : List Char} (text : line.text.toList = left ++ right)
        (hbefore : before = left) (hafter : after = right ++ (line.newline.chars ++ joined rest)) :
        ∃ a line' b left right, line :: rest = a ++ line' :: b ∧
          line'.text.toList = left ++ right ∧ before = joined a ++ left ∧
          after = right ++ (line'.newline.chars ++ joined b) ∧ EndsLine (joined a) ∧
          Unbroken line'.text.toList ∧ line'.newline.Ends (joined b) :=
      ⟨[], line, rest, left, right, rfl, text, hbefore, hafter, .nil, unbroken, ends⟩
    rw [joined_cons, chars, List.append_assoc] at hcut
    rcases List.append_eq_append_iff.1 hcut with ⟨beyond, rfl, hrest⟩ | ⟨right, text, hafter⟩
    · by_cases hbeyond : beyond = []
      · subst hbeyond
        exact here (List.append_nil _).symm (List.append_nil _) hrest.symm
      · have last : (line.text.toList ++ beyond).getLast? = beyond.getLast? := by
          rw [List.getLast?_append, List.getLast?_eq_some_getLast hbeyond, Option.some_or]
        rw [last] at whole
        obtain ⟨more, rfl, hmore⟩ := exists_of_terminator_append present hrest hbeyond whole
        have whole_more : ¬(more.getLast? = some '\r' ∧ after.head? = some '\n') := by
          rintro ⟨hlast, hhead⟩
          refine whole ⟨?_, hhead⟩
          rw [List.getLast?_append, hlast, Option.some_or]
        obtain ⟨a, line', b, left, right, rfl, text, rfl, rfl, ends_a, rest_line⟩ :=
          ih hmore whole_more
        refine ⟨line :: a, line', b, left, right, rfl, text, ?_, rfl, ?_, rest_line⟩
        · simp [chars]
        · rw [joined_cons]
          by_cases hnil : joined a = []
          · rw [hnil, List.append_nil]
            exact .newline present _
          · exact ends_a.of_append hnil
    · exact here text rfl hafter

/-- The searches from a place find the line that contains it. -/
theorem IsPlace.exists_placed {source : String} {n : Nat} (h : IsPlace source.toList n) :
    ∃ p ∈ placed source, p.Contains n ∧ n ≤ p.contentStop ∧
      lineStart? source.toList n = some p.start ∧ lineEnd? source.toList n = some p.lineEnd := by
  obtain ⟨before, after, hcut, hn, whole⟩ := h
  obtain ⟨full, hjoined⟩ := full_toEnd source
  obtain ⟨a, line, b, left, right, hlines, text, rfl, rfl, ends_a, unbroken, ends⟩ :=
    full.exists_line (hjoined.trans hcut) whole
  rw [text] at unbroken
  have left_unbroken : Unbroken left := fun c hc => unbroken c (List.mem_append_left _ hc)
  have right_unbroken : Unbroken right := fun c hc => unbroken c (List.mem_append_right _ hc)
  have member : ⟨line, 0 + size a⟩ ∈ placed source := by
    rw [placed, hlines]
    exact mem_laidOut_append a b line 0
  rw [Nat.zero_add] at member
  have reached : size a + byteLength left = n := by rw [← hn, byteLength_append, size]
  have content : n + byteLength right = size a + byteLength line.text.toList := by
    rw [text, byteLength_append]
    omega
  refine ⟨⟨line, size a⟩, member, ⟨?_, ?_⟩, ?_, ?_, ?_⟩
  · show size a ≤ n
    omega
  · show n < size a + byteLength line.text.toList + line.newline.chars.length ∨
      line.newline = .absent ∧ n = size a + byteLength line.text.toList + line.newline.chars.length
    cases hnewline : line.newline with
    | absent =>
      have none_added : Newline.absent.chars.length = 0 := rfl
      simp only [true_and]
      omega
    | lf | cr | crlf =>
      simp only [Newline.chars, List.length_cons, List.length_nil]
      omega
  · show n ≤ size a + byteLength line.text.toList
    omega
  · rw [hcut, ← hn, List.append_assoc]
    exact lineStart?_append ends_a left_unbroken _
  · rw [hcut, ← hn, lineEnd?_append _ right_unbroken ends, hn, content]
    rfl

/-! ### Blocks -/

/-- What is left of a text without the line ends behind it. -/
theorem rdropWhile_isLineEnd (content : List Char) :
    (∀ c ∈ content, isLineEnd c = true) ∧ content.rdropWhile isLineEnd = [] ∨
      ∃ front c back, content = front ++ c :: back ∧ isLineEnd c = false ∧
        (∀ d ∈ back, isLineEnd d = true) ∧ content.rdropWhile isLineEnd = front ++ [c] := by
  have cut := List.rdropWhile_append_rtakeWhile (p := isLineEnd) (l := content)
  rcases List.eq_nil_or_concat (content.rdropWhile isLineEnd) with hnil | ⟨front, c, hlast⟩
  · exact .inl ⟨List.rdropWhile_eq_nil_iff.1 hnil, hnil⟩
  · rw [List.concat_eq_append] at hlast
    have last : c ∈ (content.rdropWhile isLineEnd).getLast? := by
      rw [hlast]
      simp
    have inside : isLineEnd c = false := eq_false_of_mem_getLast?_rdropWhile last
    refine .inr ⟨front, c, content.rtakeWhile isLineEnd, ?_, inside,
      fun _ => List.mem_rtakeWhile_imp, hlast⟩
    rw [hlast, List.append_assoc, List.singleton_append] at cut
    exact cut.symm

theorem IsPlace.isPosition {source : List Char} {n : Nat} (h : IsPlace source n) :
    IsPosition source n := by
  obtain ⟨before, after, hcut, hn, -⟩ := h
  exact ⟨before, after, hcut, hn⟩

/-- A position behind a character that is no line end is not inside of a terminator. -/
theorem isPlace_concat (front : List Char) {c : Char} (h : isLineEnd c = false)
    (after : List Char) : IsPlace (front ++ [c] ++ after) (byteLength (front ++ [c])) := by
  refine ⟨front ++ [c], after, rfl, rfl, ?_⟩
  rintro ⟨hlast, -⟩
  obtain rfl : c = '\r' := by simpa using hlast
  cases h

/-- **The lines that are searched for are those the source is cut into.** At a position between two
characters that is not inside of a terminator there is one line of the cut, and the searches give
its start, the end of its text, its terminator and its end. A block that reaches from one such
position to another ends with the line of the position behind its last character that is no line
end, or of its start if there is none; so it does not end before it starts. -/
theorem scans_agree (source : String) :
    (∀ n, IsPlace source.toList n → ∃ p ∈ placed source, p.Contains n ∧
      (∀ q ∈ placed source, q.Contains n → q = p) ∧
      lineStart? source.toList n = some p.start ∧ lineEnd? source.toList n = some p.lineEnd) ∧
    ∀ start stop, IsPlace source.toList start → IsPlace source.toList stop → start ≤ stop →
      ∃ content n, sliceChars source.toList start stop = some content ∧
        ((∀ c ∈ content, isLineEnd c = true) ∧ n = start ∨
          ∃ front c back, content = front ++ c :: back ∧ isLineEnd c = false ∧
            (∀ d ∈ back, isLineEnd d = true) ∧ n = start + byteLength (front ++ [c])) ∧
        blockEnd? source.toList ⟨start, stop⟩ = lineEnd? source.toList n ∧
        ∃ p ∈ placed source, p.Contains n ∧ lineEnd? source.toList n = some p.lineEnd ∧
          start ≤ p.contentStop ∧ start ≤ p.stop := by
  constructor
  · intro n hn
    obtain ⟨p, hp, contains, -, hstart, hend⟩ := hn.exists_placed
    exact ⟨p, hp, contains, fun q hq hqn => (full_toEnd source).1.eq_of_contains hq hp hqn contains,
      hstart, hend⟩
  · intro start stop hstart hstop hle
    obtain ⟨a, content, b, hsource, rfl, rfl⟩ :=
      hstart.isPosition.exists_pieces hstop.isPosition hle
    have cut : sliceChars source.toList (byteLength a) (byteLength (a ++ content)) =
        some content := by rw [hsource, sliceChars_append]
    have block (n : Nat) (hn : n = byteLength a + byteLength (content.rdropWhile isLineEnd)) :
        blockEnd? source.toList ⟨byteLength a, byteLength (a ++ content)⟩ =
          lineEnd? source.toList n := by
      rw [blockEnd?, cut, Option.bind_some, dropRightWhile_eq_rdropWhile, ← hn]
    have line (n : Nat) (hle : byteLength a ≤ n) (hn : IsPlace source.toList n) :
        ∃ p ∈ placed source, p.Contains n ∧ lineEnd? source.toList n = some p.lineEnd ∧
          byteLength a ≤ p.contentStop ∧ byteLength a ≤ p.stop := by
      obtain ⟨p, hp, contains, hcontent, -, hend⟩ := hn.exists_placed
      have hstop : p.contentStop ≤ p.stop := Nat.le_add_right _ _
      exact ⟨p, hp, contains, hend, by omega, by omega⟩
    rcases rdropWhile_isLineEnd content with
      ⟨ends, hnil⟩ | ⟨front, c, back, rfl, inside, ends, hleft⟩
    · exact ⟨content, byteLength a, cut, .inl ⟨ends, rfl⟩, block _ (by simp [hnil]),
        line _ (Nat.le_refl _) hstart⟩
    · have place : IsPlace source.toList (byteLength a + byteLength (front ++ [c])) := by
        have behind_char := isPlace_concat (a ++ front) inside (back ++ b)
        rw [hsource, ← byteLength_append]
        simpa using behind_char
      exact ⟨_, _, cut, .inr ⟨front, c, back, rfl, inside, ends, rfl⟩, block _ (by rw [hleft]),
        line _ (Nat.le_add_right _ _) place⟩

/-- Lines that end in each of the ways, the second of them empty; a block from the first line to the
third. -/
theorem scans_agree_mixed :
    let source := "ab\r\n\rc\n"
    placed source = [⟨⟨"ab", .crlf⟩, 0⟩, ⟨⟨"", .cr⟩, 4⟩, ⟨⟨"c", .lf⟩, 5⟩, ⟨⟨"", .absent⟩, 7⟩] ∧
    IsPlace source.toList 1 ∧ IsPlace source.toList 5 ∧ 1 ≤ 5 ∧
    (∃ p ∈ placed source, p.Contains 5 ∧ (∀ q ∈ placed source, q.Contains 5 → q = p) ∧
      lineStart? source.toList 5 = some p.start ∧ lineEnd? source.toList 5 = some p.lineEnd) ∧
    ∃ content n, sliceChars source.toList 1 5 = some content ∧
      ((∀ c ∈ content, isLineEnd c = true) ∧ n = 1 ∨
        ∃ front c back, content = front ++ c :: back ∧ isLineEnd c = false ∧
          (∀ d ∈ back, isLineEnd d = true) ∧ n = 1 + byteLength (front ++ [c])) ∧
      blockEnd? source.toList ⟨1, 5⟩ = lineEnd? source.toList n ∧
      ∃ p ∈ placed source, p.Contains n ∧ lineEnd? source.toList n = some p.lineEnd ∧
        1 ≤ p.contentStop ∧ 1 ≤ p.stop := by
  intro source
  have first : IsPlace source.toList 1 :=
    ⟨"a".toList, "b\r\n\rc\n".toList, by decide, by decide, by decide⟩
  have third : IsPlace source.toList 5 :=
    ⟨"ab\r\n\r".toList, "c\n".toList, by decide, by decide, by decide⟩
  obtain ⟨line, block⟩ := scans_agree source
  exact ⟨by decide, first, third, by decide, line 5 third, block 1 5 first third (by decide)⟩

end Line

end MarkdownSpans
