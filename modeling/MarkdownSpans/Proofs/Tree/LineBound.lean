import MarkdownSpans.Proofs.Tree.LinePlace

/-!
# Bounds at the ends of lines

Where a line ends between two texts, no line that begins in the first text goes on in the second.
So the lines and the blocks that begin in the first text end there, too, and behind every place of
the first text the lines of the second are the last ones (`LineSeam.exists_gap`).
-/

namespace MarkdownSpans

open Line (Chained joined)

/-! ### Texts between which a line ends -/

/-- A line ends between two texts, and its terminator does not reach over. -/
structure LineSeam (a b : List Char) : Prop where
  ends : EndsLine a
  apart : a.getLast? = some '\r' → b.head? ≠ some '\n'

namespace LineSeam

variable {a a' b : List Char}

theorem right (h : LineSeam (a ++ a') b) : LineSeam a' b := by
  cases ha' : a' with
  | nil => exact ⟨.nil, nofun⟩
  | cons c rest =>
    have last : (a ++ a').getLast? = a'.getLast? := by
      rw [List.getLast?_append, ha', List.getLast?_eq_some_getLast (List.cons_ne_nil c rest),
        Option.some_or]
    obtain ⟨ends, apart⟩ := h
    rw [EndsLine, last] at ends
    rw [last] at apart
    rw [← ha']
    exact ⟨ends, apart⟩

theorem of_chained {ls ms : List Line} (h : Chained (ls ++ ms)) (hms : ms ≠ []) :
    LineSeam (joined ls) (joined ms) := by
  refine ⟨h.endsLine hms, fun hlast => ?_⟩
  rcases List.eq_nil_or_concat ls with rfl | ⟨init, line, rfl⟩
  · cases hlast
  · rw [List.concat_eq_append, List.append_assoc, List.singleton_append] at h
    have cr : line.newline = .cr := by
      have present := h.newline_ne_absent hms
      rw [List.concat_eq_append, Line.joined_append, Line.joined_cons, Line.joined_nil,
        List.append_nil, Line.chars, ← List.append_assoc, List.getLast?_append] at hlast
      cases hnewline : line.newline with
      | absent => exact absurd hnewline present
      | lf | crlf => simp [hnewline, Newline.chars] at hlast
      | cr => rfl
    exact h.ends.cr cr

end LineSeam

theorem Line.Chained.append {ls ms : List Line} (hls : Chained ls) (hms : Chained ms)
    (h : LineSeam (joined ls) (joined ms)) : Chained (ls ++ ms) := by
  induction ls with
  | nil => exact hms
  | cons line rest ih =>
    obtain ⟨hunbroken, hne, hends, hrest⟩ := hls
    rw [joined_cons] at h
    have alone (hnil : rest = []) : LineSeam line.chars (joined ms) := by
      rwa [hnil, joined_nil, List.append_nil] at h
    refine ⟨hunbroken, hne, ⟨fun habsent => ?_, fun hcr => ?_⟩, ih hrest h.right⟩
    · -- A line without terminator is the last one, so that no line ends behind it.
      have last := (alone (hrest.eq_nil_of_joined (hends.absent habsent))).ends
      have text : line.chars = line.text.toList := by simp [chars, habsent, Newline.chars]
      have present := List.getLast?_eq_some_getLast (chars_ne_nil hne)
      have inside := hunbroken _ (text.subst (List.mem_of_getLast? present))
      rw [last _ present] at inside
      cases inside
    · cases hjoined : joined rest with
      | nil =>
        have last : line.chars.getLast? = some '\r' := by simp [chars, hcr, Newline.chars]
        obtain rfl := hrest.eq_nil_of_joined hjoined
        exact (alone rfl).apart last
      | cons c more =>
        have head := hends.cr hcr
        show (joined (rest ++ ms)).head? ≠ _
        rw [joined_append, hjoined]
        rwa [hjoined] at head

/-- A text is cut into lines piece by piece, if it is cut where a line ends. -/
theorem LineSeam.split_append {a b : List Char} (h : LineSeam a b) :
    Line.split (String.ofList (a ++ b)) =
      Line.split (String.ofList a) ++ Line.split (String.ofList b) := by
  obtain ⟨chained, hjoined⟩ := Line.chained_split_ofList a
  obtain ⟨chained', hjoined'⟩ := Line.chained_split_ofList b
  have both := (chained.append chained' (by rwa [hjoined, hjoined'])).split_joined
  rwa [Line.joined_append, hjoined, hjoined'] at both

/-! ### The first line of a text -/

/-- The number of bytes of the first line of a text with its terminator. -/
def lineLength (cs : List Char) : Nat :=
  byteLength (cs.takeWhile (!isLineEnd ·)) +
    (leadingNewline (cs.dropWhile (!isLineEnd ·))).chars.length

theorem lineLength_cons {c : Char} (h : isLineEnd c = false) (rest : List Char) :
    lineLength (c :: rest) = c.utf8Size + lineLength rest := by
  have length (text : List Char) : byteLength (c :: text) = c.utf8Size + byteLength text := rfl
  simp [lineLength, h, length, Nat.add_assoc]

theorem lineLength_of_lineEnd {c : Char} (h : isLineEnd c = true) (rest : List Char) :
    lineLength (c :: rest) = (leadingNewline (c :: rest)).chars.length := by
  simp [lineLength, h]

theorem leadingNewline_of_apart {c : Char} (h : isLineEnd c = true) {rest : List Char}
    (hrest : c = '\r' → rest.head? ≠ some '\n') :
    (leadingNewline (c :: rest)).chars.length = 1 := by
  rcases (by simpa [isLineEnd] using h : c = '\n' ∨ c = '\r') with rfl | rfl
  · rfl
  · cases rest with
    | nil => rfl
    | cons d more =>
      have apart : d ≠ '\n' := fun hd => hrest rfl (congrArg some hd)
      have single : leadingNewline ('\r' :: d :: more) = .cr := by
        rw [leadingNewline]
        intro more' hmore
        exact apart (List.cons.inj hmore).1
      rw [single]
      rfl

theorem length_leadingNewline_le (cs : List Char) : (leadingNewline cs).chars.length ≤ 2 := by
  cases leadingNewline cs <;> decide

/-- The first line does not go on behind the end of a line. -/
theorem LineSeam.lineLength_le {a b : List Char} (h : LineSeam a b) (ha : a ≠ []) :
    lineLength (a ++ b) ≤ byteLength a := by
  induction a with
  | nil => exact absurd rfl ha
  | cons c rest ih =>
    have length : byteLength (c :: rest) = c.utf8Size + byteLength rest := rfl
    rw [List.cons_append]
    cases hc : isLineEnd c with
    | false =>
      have hrest : rest ≠ [] := by
        rintro rfl
        rw [h.ends c rfl] at hc
        cases hc
      have tail : LineSeam rest b := LineSeam.right (a := [c]) h
      have := ih tail hrest
      rw [lineLength_cons hc]
      omega
    | true =>
      rw [lineLength_of_lineEnd hc]
      have pos := c.utf8Size_pos
      cases rest with
      | nil =>
        have single := leadingNewline_of_apart hc fun hcr => h.apart (congrArg some hcr)
        rw [List.nil_append, single]
        exact Nat.le_add_right_of_le pos
      | cons d more =>
        have short := length_leadingNewline_le (c :: (d :: more ++ b))
        have pos' := byteLength_pos (List.cons_ne_nil d more)
        omega

/-- The first line of a text behind another one reaches at least as far as that of both. -/
theorem lineLength_append_le (a b : List Char) :
    lineLength (a ++ b) ≤ byteLength a + lineLength b := by
  induction a with
  | nil => exact Nat.le_add_left ..
  | cons c rest ih =>
    have length : byteLength (c :: rest) = c.utf8Size + byteLength rest := rfl
    rw [List.cons_append]
    cases hc : isLineEnd c with
    | false =>
      rw [lineLength_cons hc]
      omega
    | true =>
      rw [lineLength_of_lineEnd hc]
      have pos := c.utf8Size_pos
      by_cases hapart : c = '\r' → (rest ++ b).head? ≠ some '\n'
      · rw [leadingNewline_of_apart hc hapart]
        omega
      · -- A terminator of two characters, the second of which is a line of its own.
        obtain ⟨-, hhead⟩ := Classical.not_imp.1 hapart
        obtain ⟨more, hmore⟩ := List.head?_eq_some_iff.1 (not_not.1 hhead)
        have short := length_leadingNewline_le (c :: (rest ++ b))
        have next : lineLength (rest ++ b) = 1 := by
          rw [hmore]
          exact lineLength_of_lineEnd rfl more
        omega

/-! ### Ends of lines and blocks -/

theorem eq_nil_of_byteLength_append_le {a b : List Char}
    (h : byteLength (a ++ b) ≤ byteLength a) : b = [] := by
  by_contra hb
  have := byteLength_pos hb
  rw [byteLength_append] at h
  omega

/-- Of two beginnings of a text the shorter one is a beginning of the other. -/
theorem exists_piece_of_byteLength_le {a b c d : List Char} (h : a ++ c = b ++ d)
    (hle : byteLength a ≤ byteLength b) : ∃ piece, b = a ++ piece ∧ c = piece ++ d := by
  rcases List.append_eq_append_iff.1 h with ⟨piece, rfl, rfl⟩ | ⟨piece, rfl, rfl⟩
  · exact ⟨piece, rfl, rfl⟩
  · obtain rfl := eq_nil_of_byteLength_append_le hle
    exact ⟨[], by simp, rfl⟩

theorem byteLength_rdropWhile_le (p : Char → Bool) (cs : List Char) :
    byteLength (cs.rdropWhile p) ≤ byteLength cs := by
  have length := congrArg byteLength (List.rdropWhile_append_rtakeWhile (p := p) (l := cs))
  rw [byteLength_append] at length
  omega

/-- More text behind a text leaves at least as much of it. -/
theorem byteLength_rdropWhile_append_le (p : Char → Bool) (cs ds : List Char) :
    byteLength (cs.rdropWhile p) ≤ byteLength ((cs ++ ds).rdropWhile p) := by
  have all := byteLength_rdropWhile_le p cs
  unfold List.rdropWhile at all ⊢
  rw [List.reverse_append, List.dropWhile_append]
  split
  · exact Nat.le_refl _
  · rw [List.reverse_append, List.reverse_reverse, byteLength_append]
    omega

/-- The end of the line that holds a place. -/
theorem exists_of_lineEnd? {source : List Char} {n : Nat} {last : LineEnd}
    (h : lineEnd? source n = some last) :
    ∃ before after, source = before ++ after ∧ byteLength before = n ∧
      last.stop = n + lineLength after := by
  obtain ⟨after, hdrop, rfl⟩ := Option.map_eq_some_iff.1 h
  obtain ⟨before, hsource, hlength⟩ := exists_of_dropBytes hdrop
  exact ⟨before, after, hsource, hlength, Nat.add_assoc ..⟩

/-- Of two places the one behind the other stands on a line that ends no earlier. -/
theorem lineEnd?_stop_mono {source : List Char} {m n : Nat} {last last' : LineEnd}
    (h : lineEnd? source m = some last) (h' : lineEnd? source n = some last') (hle : m ≤ n) :
    last.stop ≤ last'.stop := by
  obtain ⟨before, after, rfl, rfl, hstop⟩ := exists_of_lineEnd? h
  obtain ⟨before', after', hsource, rfl, hstop'⟩ := exists_of_lineEnd? h'
  rw [hstop, hstop']
  obtain ⟨piece, rfl, rfl⟩ := exists_piece_of_byteLength_le hsource hle
  have := lineLength_append_le piece after'
  rw [byteLength_append]
  omega

/-- A range that begins before a limit and ends by it. -/
structure ByteRange.Inside (limit : Nat) (range : ByteRange) : Prop where
  start : range.start < limit
  stop : range.stop ≤ limit

theorem ByteRange.inside_iff {limit : Nat} {range : ByteRange} :
    range.Inside limit ↔ range.start < limit ∧ range.stop ≤ limit :=
  ⟨fun h => ⟨h.start, h.stop⟩, fun ⟨hstart, hstop⟩ => ⟨hstart, hstop⟩⟩

instance (limit : Nat) (range : ByteRange) : Decidable (range.Inside limit) :=
  decidable_of_iff _ ByteRange.inside_iff.symm

namespace LineSeam

variable {a b : List Char} {range : ByteRange} {last : LineEnd}

/-- What stands behind a place in the first text. -/
theorem exists_rest (h : LineSeam a b) {before after : List Char}
    (hsource : a ++ b = before ++ after) (hle : byteLength before ≤ byteLength a) :
    ∃ rest, a = before ++ rest ∧ after = rest ++ b ∧ LineSeam rest b := by
  obtain ⟨rest, rfl, rfl⟩ := exists_piece_of_byteLength_le hsource.symm hle
  exact ⟨rest, rfl, rfl, h.right⟩

theorem lineEnd?_stop_le (h : LineSeam a b) {n : Nat} (hlast : lineEnd? (a ++ b) n = some last)
    (hn : n < byteLength a) : last.stop ≤ byteLength a := by
  obtain ⟨before, after, hsource, rfl, hstop⟩ := exists_of_lineEnd? hlast
  obtain ⟨rest, rfl, rfl, seam⟩ := h.exists_rest hsource (Nat.le_of_lt hn)
  have inside : rest ≠ [] := by
    rintro rfl
    simp at hn
  have := seam.lineLength_le inside
  rw [byteLength_append, hstop]
  omega

/-- A text at the end of a line has a terminator to leave aside. -/
theorem byteLength_rdropWhile_lt (h : LineSeam a b) (ha : a ≠ []) :
    byteLength (a.rdropWhile isLineEnd) < byteLength a := by
  have length := congrArg byteLength (List.rdropWhile_append_rtakeWhile (p := isLineEnd) (l := a))
  rw [byteLength_append] at length
  have taken : a.rtakeWhile isLineEnd ≠ [] := fun hnil =>
    List.rtakeWhile_eq_nil_iff.1 hnil ha (h.ends _ (List.getLast?_eq_some_getLast ha))
  have := byteLength_pos taken
  omega

theorem blockEnd?_stop_le (h : LineSeam a b) (hlast : blockEnd? (a ++ b) range = some last)
    (hrange : range.Inside (byteLength a)) : last.stop ≤ byteLength a := by
  obtain ⟨content, hslice, hline⟩ := Option.bind_eq_some_iff.1 hlast
  obtain ⟨before, after, hsource, hstart, hstop⟩ := exists_of_sliceChars hslice
  have hle := hrange.stop
  rw [← hstop] at hle
  obtain ⟨rest, rfl, -⟩ := h.exists_rest hsource hle
  refine h.lineEnd?_stop_le hline ?_
  have hlt := hrange.start
  rw [← hstart] at hlt ⊢
  have trimmed := byteLength_rdropWhile_le isLineEnd content
  simp only [byteLength_append, dropRightWhile_eq_rdropWhile] at hlt ⊢
  cases rest with
  | nil =>
    have inner : LineSeam content b := LineSeam.right (a := before) (by simpa using h)
    have := inner.byteLength_rdropWhile_lt (by rintro rfl; simp at hlt)
    omega
  | cons c more =>
    have := byteLength_pos (List.cons_ne_nil c more)
    omega

end LineSeam

/-- Two pieces that begin at one place, the second of them the longer one. -/
theorem exists_of_sliceChars_le {source piece piece' : List Char} {start m n : Nat}
    (h : sliceChars source start m = some piece) (h' : sliceChars source start n = some piece')
    (hle : m ≤ n) : ∃ more, piece' = piece ++ more := by
  rw [sliceChars] at h h'
  split_ifs at h h' with hm hn
  obtain ⟨rest, hdrop, htake⟩ := Option.bind_eq_some_iff.1 h
  obtain ⟨rest', hdrop', htake'⟩ := Option.bind_eq_some_iff.1 h'
  obtain rfl : rest = rest' := Option.some.inj (hdrop.symm.trans hdrop')
  obtain ⟨after, rfl, hlength⟩ := exists_of_takeBytes htake
  obtain ⟨after', hrest, hlength'⟩ := exists_of_takeBytes htake'
  obtain ⟨more, rfl, -⟩ := exists_piece_of_byteLength_le hrest (by omega)
  exact ⟨more, rfl⟩

/-- Of two blocks that begin at one place the one with the longer range ends no earlier. -/
theorem blockEnd?_stop_mono {source : List Char} {start m n : Nat} {last last' : LineEnd}
    (h : blockEnd? source ⟨start, m⟩ = some last) (h' : blockEnd? source ⟨start, n⟩ = some last')
    (hle : m ≤ n) : last.stop ≤ last'.stop := by
  obtain ⟨content, hslice, hline⟩ := Option.bind_eq_some_iff.1 h
  obtain ⟨content', hslice', hline'⟩ := Option.bind_eq_some_iff.1 h'
  obtain ⟨more, rfl⟩ := exists_of_sliceChars_le hslice hslice' hle
  exact lineEnd?_stop_mono hline hline'
    (Nat.add_le_add_left (byteLength_rdropWhile_append_le isLineEnd content more) start)

/-! ### Gaps -/

namespace LineSeam

variable {a b : List Char}

/-- Behind a place of the first text stand the lines of the second text, and before them what is
left of the first. -/
theorem exists_gapBetween (h : LineSeam a b) (hb : b ≠ []) {start : Nat}
    (hstart : IsPosition (a ++ b) start) (hle : start ≤ byteLength a) :
    ∃ lines, gapBetween? (a ++ b) false start (byteLength (a ++ b)) =
        some (lines ++ Line.split (String.ofList b)) ∧
      (start = byteLength a → lines = []) := by
  obtain ⟨before, after, hsource, rfl⟩ := hstart
  obtain ⟨rest, rfl, rfl, seam⟩ := h.exists_rest hsource hle
  have pos := byteLength_pos hb
  have cut : sliceChars (before ++ rest ++ b) (byteLength before)
      (byteLength (before ++ rest ++ b)) = some (rest ++ b) := by
    simpa using sliceChars_append before (rest ++ b) []
  refine ⟨Line.split (String.ofList rest), ?_, fun heq => ?_⟩
  · rw [gapBetween?, if_neg (by simp only [byteLength_append]; omega), cut, Option.map_some,
      gapLines, seam.split_append]
    rfl
  · obtain rfl := eq_nil_of_byteLength_append_le (Nat.le_of_eq heq.symm)
    rfl

/-- The lines behind a cursor in the first text, up to the end of the second. -/
theorem exists_gap (h : LineSeam a b) (hb : b ≠ []) {cursor : Nat}
    (hcursor : IsPosition (a ++ b) cursor) (hle : cursor ≤ byteLength a) :
    ∃ lines, Builder.gapFrom? (a ++ b) false cursor (byteLength (a ++ b)) =
        some (lines ++ Line.split (String.ofList b)) ∧
      (cursor = byteLength a → lines = []) := by
  obtain ⟨before, after, hsource, hlength, htake, -⟩ := hcursor.exists_take
  by_cases hline : (before.getLast?.map isLineEnd).getD true = true
  · rw [gapFrom?_of_lineStart false _ htake hline]
    exact h.exists_gapBetween hb hcursor hle
  · -- A line ends behind the first text, so the cursor is inside of it.
    have inside : cursor < byteLength a := by
      refine Nat.lt_of_le_of_ne hle fun heq => hline ?_
      subst heq
      rw [takeBytes_append] at htake
      cases htake
      cases hlast : a.getLast? with
      | none => rfl
      | some c => exact h.ends c hlast
    obtain ⟨last, hlast, -, -, -, hposition⟩ := hcursor.exists_lineEnd
    have hstop := h.lineEnd?_stop_le hlast inside
    obtain ⟨lines, hgap, -⟩ := h.exists_gapBetween hb hposition hstop
    rw [gapFrom?_of_inside false _ htake hline hlast]
    exact ⟨lines, hgap, fun heq => absurd heq (Nat.ne_of_lt inside)⟩

end LineSeam

end MarkdownSpans
