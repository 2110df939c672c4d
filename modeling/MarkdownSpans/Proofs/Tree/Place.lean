import Mathlib.Tactic.ByContra
import Mathlib.Tactic.SplitIfs
import MarkdownSpans.Proofs.Text.Piece
import MarkdownSpans.Proofs.Text.Space
import MarkdownSpans.Tree.Builder

/-!
# Places in a source

`IsPosition source n` says that a byte position falls between two characters of a source. Cutting a
source at positions succeeds and gives the pieces one expects; the starts and the ends of lines, the
ends of blocks and the gaps between them are found from every position and are positions again.
-/

namespace MarkdownSpans

/-! ### Lengths in bytes -/

@[simp] theorem byteLength_nil : byteLength [] = 0 := rfl

@[simp] theorem byteLength_append (a b : List Char) :
    byteLength (a ++ b) = byteLength a + byteLength b :=
  OffsetUnit.measureChars_append .utf8 a b

theorem length_le_byteLength (cs : List Char) : cs.length ≤ byteLength cs := by
  induction cs with
  | nil => simp
  | cons c rest ih =>
    have pos := c.utf8Size_pos
    show rest.length + 1 ≤ c.utf8Size + byteLength rest
    omega

theorem byteLength_pos {cs : List Char} (h : cs ≠ []) : 0 < byteLength cs :=
  Nat.lt_of_lt_of_le (List.length_pos_iff.2 h) (length_le_byteLength cs)

theorem byteLength_replicate (n : Nat) {c : Char} (hc : c.utf8Size = 1) :
    byteLength (List.replicate n c) = n := by
  induction n with
  | zero => rfl
  | succ n ih =>
    show c.utf8Size + byteLength (List.replicate n c) = n + 1
    omega

@[simp] theorem byteLength_newline (n : Newline) : byteLength n.chars = n.chars.length := by
  cases n <;> rfl

/-! ### Cuts -/

theorem takeBytes_append (a b : List Char) : takeBytes (a ++ b) (byteLength a) = some a :=
  takeBytes_measureChars a b

theorem dropBytes_append (a b : List Char) : dropBytes (a ++ b) (byteLength a) = some b :=
  dropBytes_measureChars a b

theorem sliceChars_append (a b c : List Char) :
    sliceChars (a ++ b ++ c) (byteLength a) (byteLength (a ++ b)) = some b :=
  sliceChars_measureChars a b c

theorem sliceChars_whole (cs : List Char) : sliceChars cs 0 (byteLength cs) = some cs := by
  simpa using sliceChars_append [] cs []

/-- What stands before a position, with the position found again. -/
theorem exists_of_takeBytes {source before : List Char} {n : Nat}
    (h : takeBytes source n = some before) :
    ∃ after, source = before ++ after ∧ byteLength before = n := by
  induction source generalizing n before with
  | nil =>
    cases n with
    | zero =>
      cases h
      exact ⟨[], rfl, rfl⟩
    | succ n => simp [takeBytes] at h
  | cons c rest ih =>
    cases n with
    | zero =>
      cases h
      exact ⟨c :: rest, rfl, rfl⟩
    | succ n =>
      rw [takeBytes] at h
      split_ifs at h with hle
      obtain ⟨before', hbefore, rfl⟩ := Option.map_eq_some_iff.1 h
      obtain ⟨after, rfl, hlength⟩ := ih hbefore
      refine ⟨after, rfl, ?_⟩
      show c.utf8Size + byteLength before' = n + 1
      omega

theorem exists_of_dropBytes {source after : List Char} {n : Nat}
    (h : dropBytes source n = some after) :
    ∃ before, source = before ++ after ∧ byteLength before = n := by
  induction source generalizing n with
  | nil =>
    cases n with
    | zero =>
      cases h
      exact ⟨[], rfl, rfl⟩
    | succ n => simp [dropBytes] at h
  | cons c rest ih =>
    cases n with
    | zero =>
      cases h
      exact ⟨[], rfl, rfl⟩
    | succ n =>
      rw [dropBytes] at h
      split_ifs at h with hle
      obtain ⟨before, rfl, hlength⟩ := ih h
      refine ⟨c :: before, rfl, ?_⟩
      show c.utf8Size + byteLength before = n + 1
      omega

/-- What stands between two positions, with the positions found again. -/
theorem exists_of_sliceChars {source piece : List Char} {m n : Nat}
    (h : sliceChars source m n = some piece) :
    ∃ before after, source = before ++ piece ++ after ∧ byteLength before = m ∧
      byteLength (before ++ piece) = n := by
  rw [sliceChars] at h
  split_ifs at h with hle
  obtain ⟨rest, hdrop, htake⟩ := Option.bind_eq_some_iff.1 h
  obtain ⟨before, rfl, hbefore⟩ := exists_of_dropBytes hdrop
  obtain ⟨after, rfl, hpiece⟩ := exists_of_takeBytes htake
  refine ⟨before, after, (List.append_assoc ..).symm, hbefore, ?_⟩
  rw [byteLength_append]
  omega

/-- A position that falls between two characters of a source, or at one of its ends. -/
def IsPosition (source : List Char) (n : Nat) : Prop :=
  ∃ before after, source = before ++ after ∧ byteLength before = n

namespace IsPosition

variable {source : List Char} {m n : Nat}

theorem zero (source : List Char) : IsPosition source 0 := ⟨[], source, rfl, rfl⟩

theorem length (source : List Char) : IsPosition source (byteLength source) :=
  ⟨source, [], by simp, rfl⟩

theorem max (hm : IsPosition source m) (hn : IsPosition source n) :
    IsPosition source (Max.max m n) := by
  rcases Nat.le_total m n with h | h
  · rwa [Nat.max_eq_right h]
  · rwa [Nat.max_eq_left h]

/-- Two positions cut a source into three. -/
theorem exists_pieces (hm : IsPosition source m) (hn : IsPosition source n) (hle : m ≤ n) :
    ∃ a b c, source = a ++ b ++ c ∧ byteLength a = m ∧ byteLength (a ++ b) = n := by
  obtain ⟨a, r, rfl, rfl⟩ := hm
  obtain ⟨d, s, hsource, rfl⟩ := hn
  rcases List.append_eq_append_iff.1 hsource with ⟨b, rfl, rfl⟩ | ⟨b, rfl, rfl⟩
  · exact ⟨a, b, s, by simp, rfl, rfl⟩
  · -- The second position is not behind the first, so nothing stands between them.
    have empty : b = [] := by
      by_contra hb
      have := byteLength_pos hb
      simp at hle
      omega
    subst empty
    exact ⟨d, [], r, by simp, by simp, by simp⟩

theorem of_takeBytes {before : List Char} (h : takeBytes source n = some before) :
    IsPosition source n := by
  obtain ⟨after, hsource, hlength⟩ := exists_of_takeBytes h
  exact ⟨before, after, hsource, hlength⟩

theorem exists_take (h : IsPosition source n) :
    ∃ before after, source = before ++ after ∧ byteLength before = n ∧
      takeBytes source n = some before ∧ dropBytes source n = some after := by
  obtain ⟨before, after, rfl, rfl⟩ := h
  exact ⟨before, after, rfl, rfl, takeBytes_append .., dropBytes_append ..⟩

theorem exists_slice (hm : IsPosition source m) (hn : IsPosition source n) (hle : m ≤ n) :
    ∃ piece, sliceChars source m n = some piece ∧ IsPosition source (m + byteLength piece) := by
  obtain ⟨a, b, c, rfl, rfl, rfl⟩ := hm.exists_pieces hn hle
  exact ⟨b, sliceChars_append a b c, a ++ b, c, rfl, by simp⟩

end IsPosition

/-- Cutting tells whether a number is a position. -/
theorem isPosition_iff {source : List Char} {n : Nat} :
    IsPosition source n ↔ (takeBytes source n).isSome := by
  constructor
  · intro h
    obtain ⟨before, -, -, -, htake, -⟩ := h.exists_take
    simp [htake]
  · intro h
    obtain ⟨before, htake⟩ := Option.isSome_iff_exists.1 h
    exact .of_takeBytes htake

instance (source : List Char) (n : Nat) : Decidable (IsPosition source n) :=
  decidable_of_iff _ isPosition_iff.symm

/-- The range has its ends between characters of a source, in the right order. -/
structure ByteRange.Fits (source : List Char) (range : ByteRange) : Prop where
  start : IsPosition source range.start
  stop : IsPosition source range.stop
  le : range.start ≤ range.stop

theorem ByteRange.Fits.of_sliceChars {source piece : List Char} {range : ByteRange}
    (h : sliceChars source range.start range.stop = some piece) : range.Fits source := by
  obtain ⟨before, after, rfl, hstart, hstop⟩ := exists_of_sliceChars h
  refine ⟨⟨before, piece ++ after, by simp, hstart⟩, ⟨before ++ piece, after, rfl, hstop⟩, ?_⟩
  rw [← hstart, ← hstop, byteLength_append]
  omega

theorem ByteRange.fits_iff {source : List Char} {range : ByteRange} :
    range.Fits source ↔ IsPosition source range.start ∧ IsPosition source range.stop ∧
      range.start ≤ range.stop :=
  ⟨fun h => ⟨h.start, h.stop, h.le⟩, fun ⟨hstart, hstop, hle⟩ => ⟨hstart, hstop, hle⟩⟩

instance (source : List Char) (range : ByteRange) : Decidable (range.Fits source) :=
  decidable_of_iff _ ByteRange.fits_iff.symm

/-! ### Lines -/

theorem leadingNewline_append (rest : List Char) :
    ∃ after, rest = (leadingNewline rest).chars ++ after := by
  unfold leadingNewline
  split <;> simp [Newline.chars]

namespace IsPosition

variable {source : List Char} {n : Nat}

theorem exists_lineStart (h : IsPosition source n) :
    ∃ start, lineStart? source n = some start ∧ start ≤ n ∧ IsPosition source start := by
  obtain ⟨before, after, rfl, rfl, htake, -⟩ := h.exists_take
  have cut := List.rdropWhile_append_rtakeWhile (p := (!isLineEnd ·)) (l := before)
  have length := congrArg byteLength cut
  rw [byteLength_append] at length
  refine ⟨_, by rw [lineStart?, htake, Option.map_some, takeRightWhile_eq_rtakeWhile], by omega,
    before.rdropWhile (!isLineEnd ·), before.rtakeWhile (!isLineEnd ·) ++ after, ?_, ?_⟩
  · rw [← List.append_assoc, cut]
  · omega

theorem exists_lineEnd (h : IsPosition source n) :
    ∃ last, lineEnd? source n = some last ∧ n ≤ last.contentStop ∧
      last.contentStop ≤ last.stop ∧ IsPosition source last.contentStop ∧
      IsPosition source last.stop := by
  obtain ⟨before, after, rfl, rfl, -, hdrop⟩ := h.exists_take
  have cut := List.takeWhile_append_dropWhile (p := (!isLineEnd ·)) (l := after)
  obtain ⟨rest, hrest⟩ := leadingNewline_append (after.dropWhile (!isLineEnd ·))
  refine ⟨_, by rw [lineEnd?, hdrop, Option.map_some], Nat.le_add_right _ _, Nat.le_add_right _ _,
    ⟨before ++ after.takeWhile (!isLineEnd ·), after.dropWhile (!isLineEnd ·), ?_, ?_⟩,
    ⟨before ++ after.takeWhile (!isLineEnd ·) ++
      (leadingNewline (after.dropWhile (!isLineEnd ·))).chars, rest, ?_, ?_⟩⟩
  · rw [List.append_assoc, cut]
  · simp
  · rw [List.append_assoc, ← hrest, List.append_assoc, cut]
  · simp [Nat.add_assoc]

end IsPosition

theorem ByteRange.Fits.exists_blockEnd {source : List Char} {range : ByteRange}
    (h : range.Fits source) :
    ∃ last, blockEnd? source range = some last ∧ range.start ≤ last.contentStop ∧
      last.contentStop ≤ last.stop ∧ IsPosition source last.contentStop ∧
      IsPosition source last.stop := by
  obtain ⟨a, b, c, rfl, ha, hab⟩ := h.start.exists_pieces h.stop h.le
  have cut := List.rdropWhile_append_rtakeWhile (p := isLineEnd) (l := b)
  have position : IsPosition (a ++ b ++ c)
      (range.start + byteLength (b.rdropWhile isLineEnd)) := by
    refine ⟨a ++ b.rdropWhile isLineEnd, b.rtakeWhile isLineEnd ++ c, ?_, by simp [ha]⟩
    rw [List.append_assoc, List.append_assoc, ← List.append_assoc (b.rdropWhile isLineEnd), cut]
  obtain ⟨last, hlast, hle, hstop, hcontent⟩ := position.exists_lineEnd
  refine ⟨last, ?_, by omega, hstop, hcontent⟩
  rw [blockEnd?, ← ha, ← hab, sliceChars_append, Option.bind_some, dropRightWhile_eq_rdropWhile, ha,
    hlast]

/-- The lines of a piece of a source as they are recorded. -/
def gapLines (nested : Bool) (piece : List Char) : List Line :=
  let lines := Line.split (String.ofList piece)
  if nested then lines.map fun line => .blank line.newline else lines

/-- The lines between two positions; none if they are in the wrong order. -/
def gapBetween? (source : List Char) (nested : Bool) (start stop : Nat) : Option (List Line) :=
  if stop ≤ start then some [] else (sliceChars source start stop).map (gapLines nested)

section Gaps

variable {source before : List Char} {cursor : Nat}

/-- From the start of a line on, the gap begins at the cursor. -/
theorem gapFrom?_of_lineStart (nested : Bool) (stop : Nat)
    (htake : takeBytes source cursor = some before)
    (h : (before.getLast?.map isLineEnd).getD true = true) :
    Builder.gapFrom? source nested cursor stop = gapBetween? source nested cursor stop := by
  unfold Builder.gapFrom? gapBetween?
  simp only [htake, Option.bind_eq_bind, Option.bind_some, if_pos h]
  cases sliceChars source cursor stop <;> rfl

/-- Inside a line, the gap begins behind the end of the line. -/
theorem gapFrom?_of_inside (nested : Bool) (stop : Nat) {last : LineEnd}
    (htake : takeBytes source cursor = some before)
    (h : ¬(before.getLast?.map isLineEnd).getD true = true)
    (hlast : lineEnd? source cursor = some last) :
    Builder.gapFrom? source nested cursor stop = gapBetween? source nested last.stop stop := by
  unfold Builder.gapFrom? gapBetween?
  simp only [htake, hlast, Option.bind_eq_bind, Option.bind_some, Option.map_some, if_neg h]
  cases sliceChars source last.stop stop <;> rfl

end Gaps

/-- Nothing stands between a position and one that is not behind it, wherever the gap begins. -/
theorem IsPosition.gapFrom?_of_le {source : List Char} {cursor stop : Nat}
    (hcursor : IsPosition source cursor) (hle : stop ≤ cursor) (nested : Bool) :
    Builder.gapFrom? source nested cursor stop = some [] := by
  obtain ⟨before, after, -, -, htake, -⟩ := hcursor.exists_take
  by_cases hline : (before.getLast?.map isLineEnd).getD true = true
  · rw [gapFrom?_of_lineStart nested stop htake hline, gapBetween?, if_pos hle]
  · obtain ⟨last, hlast, hcontent, hstop, -⟩ := hcursor.exists_lineEnd
    rw [gapFrom?_of_inside nested stop htake hline hlast, gapBetween?, if_pos (by omega)]

theorem IsPosition.exists_gap {source : List Char} {cursor stop : Nat}
    (hcursor : IsPosition source cursor) (hstop : IsPosition source stop) (nested : Bool) :
    ∃ lines, Builder.gapFrom? source nested cursor stop = some lines := by
  have between {start : Nat} (hstart : IsPosition source start) :
      ∃ lines, gapBetween? source nested start stop = some lines := by
    unfold gapBetween?
    split_ifs with hle
    · exact ⟨[], rfl⟩
    · obtain ⟨piece, hpiece, -⟩ := hstart.exists_slice hstop (by omega)
      exact ⟨_, by rw [hpiece, Option.map_some]⟩
  obtain ⟨before, after, -, -, htake, -⟩ := hcursor.exists_take
  by_cases hline : (before.getLast?.map isLineEnd).getD true = true
  · rw [gapFrom?_of_lineStart nested stop htake hline]
    exact between hcursor
  · obtain ⟨last, hlast, -, -, -, hposition⟩ := hcursor.exists_lineEnd
    rw [gapFrom?_of_inside nested stop htake hline hlast]
    exact between hposition

end MarkdownSpans
