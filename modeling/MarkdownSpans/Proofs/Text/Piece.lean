import MarkdownSpans.Output.RichText

/-!
# Pieces of a text by their measures

A text `a ++ b ++ c` is cut at `a` and at `a ++ b` by the measures of these two, in every unit:
`OffsetUnit.byteIndex_measure` finds the byte position of a cut, `sliceBytes_measure` cuts the piece
between two of them out, and `RichText.covered?_eq` says so of a span. Nothing else is found:
finding positions and measuring what stands before them are inverse to each other
(`OffsetUnit.byteIndex_inverts_measure`).
-/

namespace MarkdownSpans

namespace OffsetUnit

variable (unit : OffsetUnit)

theorem width_pos (c : Char) : 0 < unit.width c := by
  cases unit with
  | utf16 => simp only [width]; split <;> omega
  | utf8 => exact c.utf8Size_pos
  | chars => exact Nat.one_pos

theorem exists_width_add (c : Char) (n : Nat) : ∃ k, unit.width c + n = k + 1 :=
  Nat.exists_eq_succ_of_ne_zero (by have := unit.width_pos c; omega)

theorem byteIndexChars_cons (c : Char) (rest : List Char) (n : Nat) :
    unit.byteIndexChars (c :: rest) (unit.width c + n) =
      (unit.byteIndexChars rest n).map (c.utf8Size + ·) := by
  obtain ⟨k, hk⟩ := unit.exists_width_add c n
  have hn : k + 1 - unit.width c = n := by omega
  rw [hk, byteIndexChars, if_pos (by omega), hn]

/-- The measure of a beginning leads to its end. -/
theorem byteIndexChars_measureChars (a b : List Char) :
    unit.byteIndexChars (a ++ b) (unit.measureChars a) = some (utf8.measureChars a) := by
  induction a with
  | nil => cases b <;> rfl
  | cons c rest ih =>
    rw [List.cons_append, measureChars, byteIndexChars_cons, ih]
    rfl

theorem utf8_measure (text : String) : utf8.measure text = text.utf8ByteSize := by
  rw [measure, ← String.ofList_toList (s := text), String.toList_ofList]
  induction text.toList with
  | nil => rfl
  | cons c rest ih =>
    rw [measureChars, ih, ← List.singleton_append, String.ofList_append, String.utf8ByteSize_append,
      ← String.singleton_eq_ofList, String.utf8ByteSize_singleton]
    rfl

theorem byteIndex_measure (a b : String) :
    unit.byteIndex (a ++ b) (unit.measure a) = some (utf8.measure a) := by
  have scanned : unit.byteIndexChars (a ++ b).toList (unit.measure a) = some (utf8.measure a) := by
    rw [String.toList_append]
    exact unit.byteIndexChars_measureChars a.toList b.toList
  cases unit with
  | utf16 | chars => exact scanned
  | utf8 =>
    have valid : String.Pos.Raw.isValid (a ++ b) ⟨utf8.measure a⟩ = true := by
      rw [String.Pos.Raw.isValid_eq_true_iff, String.Pos.Raw.isValid_iff_exists_append]
      exact ⟨a, b, rfl, String.Pos.Raw.ext (utf8_measure a)⟩
    exact if_pos valid

/-- A count of units that ends between two characters of a text, or at one of its ends. -/
def IsBoundary (text : String) (n : Nat) : Prop :=
  ∃ before after, text = before ++ after ∧ unit.measure before = n

variable {unit} in
theorem IsBoundary.le {text : String} {n : Nat} (h : unit.IsBoundary text n) :
    n ≤ unit.measure text := by
  obtain ⟨before, after, rfl, rfl⟩ := h
  rw [measure_append]
  omega

end OffsetUnit

/-! ### Cutting by bytes -/

theorem dropBytes_cons (c : Char) (rest : List Char) (n : Nat) :
    dropBytes (c :: rest) (c.utf8Size + n) = dropBytes rest n := by
  obtain ⟨k, hk⟩ : ∃ k, c.utf8Size + n = k + 1 := OffsetUnit.utf8.exists_width_add c n
  have hn : k + 1 - c.utf8Size = n := by omega
  rw [hk, dropBytes, if_pos (by omega), hn]

theorem takeBytes_cons (c : Char) (rest : List Char) (n : Nat) :
    takeBytes (c :: rest) (c.utf8Size + n) = (takeBytes rest n).map (c :: ·) := by
  obtain ⟨k, hk⟩ : ∃ k, c.utf8Size + n = k + 1 := OffsetUnit.utf8.exists_width_add c n
  have hn : k + 1 - c.utf8Size = n := by omega
  rw [hk, takeBytes, if_pos (by omega), hn]

theorem dropBytes_measureChars (a b : List Char) :
    dropBytes (a ++ b) (OffsetUnit.utf8.measureChars a) = some b := by
  induction a with
  | nil => cases b <;> rfl
  | cons c rest ih =>
    rw [List.cons_append, OffsetUnit.measureChars, OffsetUnit.width, dropBytes_cons, ih]

theorem takeBytes_measureChars (a b : List Char) :
    takeBytes (a ++ b) (OffsetUnit.utf8.measureChars a) = some a := by
  induction a with
  | nil => cases b <;> rfl
  | cons c rest ih =>
    rw [List.cons_append, OffsetUnit.measureChars, OffsetUnit.width, takeBytes_cons, ih]
    rfl

theorem sliceChars_measureChars (a b c : List Char) :
    sliceChars (a ++ b ++ c) (OffsetUnit.utf8.measureChars a)
      (OffsetUnit.utf8.measureChars (a ++ b)) = some b := by
  rw [sliceChars, OffsetUnit.measureChars_append, if_pos (by omega), List.append_assoc,
    dropBytes_measureChars, Option.bind_some, Nat.add_sub_cancel_left, takeBytes_measureChars]

/-- The piece between two cuts of a text. -/
theorem sliceBytes_measure (a b c : String) :
    sliceBytes (a ++ b ++ c) (OffsetUnit.utf8.measure a) (OffsetUnit.utf8.measure (a ++ b)) =
      some b := by
  rw [sliceBytes, OffsetUnit.measure, OffsetUnit.measure, String.toList_append,
    String.toList_append, sliceChars_measureChars, Option.map_some, String.ofList_toList]

/-- **A span that starts behind `a` and is as long as `b` covers `b`.** -/
theorem RichText.covered?_eq {r : RichText} {s : Span} {a b c : String}
    (text : r.text = a ++ b ++ c) (offset : s.offset = r.unit.measure a)
    (length : s.length = r.unit.measure b) : r.covered? s = some b := by
  have stop : s.stop = r.unit.measure (a ++ b) := by
    rw [Span.stop, offset, length, OffsetUnit.measure_append]
  have start_index : r.unit.byteIndex r.text s.offset = some (OffsetUnit.utf8.measure a) := by
    rw [text, offset, String.append_assoc]
    exact r.unit.byteIndex_measure a (b ++ c)
  have stop_index : r.unit.byteIndex r.text s.stop = some (OffsetUnit.utf8.measure (a ++ b)) := by
    rw [text, stop]
    exact r.unit.byteIndex_measure (a ++ b) c
  rw [covered?, start_index, stop_index, Option.bind_some, Option.bind_some, text,
    sliceBytes_measure]

namespace OffsetUnit

/-! ### Positions and measures -/

section Inverse

variable {unit : OffsetUnit} {text : String} {n i : Nat}

/-- A position that the search finds lies behind a beginning of that measure. -/
theorem exists_of_byteIndexChars {cs : List Char} (h : unit.byteIndexChars cs n = some i) :
    ∃ a b, cs = a ++ b ∧ unit.measureChars a = n ∧ utf8.measureChars a = i := by
  induction cs generalizing n i with
  | nil =>
    cases n with
    | zero => exact ⟨[], [], rfl, rfl, by simpa [byteIndexChars, measureChars] using h⟩
    | succ n => simp [byteIndexChars] at h
  | cons c rest ih =>
    cases n with
    | zero => exact ⟨[], c :: rest, rfl, rfl, by simpa [byteIndexChars, measureChars] using h⟩
    | succ n =>
      simp only [byteIndexChars] at h
      split at h
      case isTrue fits =>
        obtain ⟨j, hj, rfl⟩ := Option.map_eq_some_iff.1 h
        obtain ⟨a, b, rfl, ha, rfl⟩ := ih hj
        refine ⟨c :: a, b, rfl, ?_, rfl⟩
        rw [measureChars, ha]
        omega
      case isFalse => simp at h

/-- Bytes are positions already; only those between two characters are taken. -/
theorem byteIndex_utf8_eq_some_iff :
    utf8.byteIndex text n = some i ↔ n = i ∧ String.Pos.Raw.IsValid text ⟨n⟩ := by
  rw [← String.Pos.Raw.isValid_eq_true_iff]
  by_cases valid : String.Pos.Raw.isValid text ⟨n⟩ = true
  · simp [byteIndex, valid]
  · simp [byteIndex, valid]

/-- A position is found exactly if a beginning of the text has this measure and ends there. -/
theorem byteIndex_eq_some_iff : unit.byteIndex text n = some i ↔
    ∃ a b, text = a ++ b ∧ unit.measure a = n ∧ utf8.measure a = i := by
  constructor
  · intro h
    have search (found : unit.byteIndexChars text.toList n = some i) :
        ∃ a b, text = a ++ b ∧ unit.measure a = n ∧ utf8.measure a = i := by
      obtain ⟨a, b, hcut, hn, hi⟩ := exists_of_byteIndexChars found
      refine ⟨String.ofList a, String.ofList b, ?_, ?_, ?_⟩
      · rw [← String.ofList_append, ← hcut, String.ofList_toList]
      · simpa [measure] using hn
      · simpa [measure] using hi
    cases unit with
    | utf16 | chars => exact search h
    | utf8 =>
      obtain ⟨rfl, valid⟩ := byteIndex_utf8_eq_some_iff.1 h
      obtain ⟨a, b, hcut, hn⟩ := String.Pos.Raw.isValid_iff_exists_append.1 valid
      have measured : utf8.measure a = n := (utf8_measure a).trans (congrArg (·.byteIdx) hn).symm
      exact ⟨a, b, hcut, measured, measured⟩
  · rintro ⟨a, b, rfl, rfl, rfl⟩
    exact unit.byteIndex_measure a b

/-- The beginnings of a text are what stands before its positions. -/
theorem exists_beginning_iff :
    (∃ a b, text = a ++ b ∧ unit.measure a = n ∧ utf8.measure a = i) ↔
      ∃ p : text.Pos, p.offset.byteIdx = i ∧ unit.measure (text.sliceTo p).copy = n := by
  constructor
  · rintro ⟨a, b, rfl, rfl, rfl⟩
    have valid : String.Pos.Raw.IsValid (a ++ b) a.rawEndPos :=
      String.Pos.Raw.isValid_iff_exists_append.2 ⟨a, b, rfl, rfl⟩
    refine ⟨(a ++ b).pos a.rawEndPos valid, (utf8_measure a).symm, ?_⟩
    rw [String.Pos.splits_append_rawEndPos.copy_sliceTo_eq]
  · rintro ⟨p, rfl, rfl⟩
    refine ⟨_, _, p.splits.eq_append, rfl, ?_⟩
    rw [utf8_measure, p.splits.offset_eq_rawEndPos]
    rfl

end Inverse

/-- **Finding a position inverts measuring what stands before it.** In every unit, a count of units
leads to the byte position `i` if and only if `i` lies between two characters of the text or at one
of its ends, and the text before it measures as much; it leads nowhere if and only if there is no
such position. So in a text that consists of three pieces, a span with the measure of the first one
as its offset and that of the second one as its length covers the second one. -/
theorem byteIndex_inverts_measure (unit : OffsetUnit) :
    (∀ (text : String) (n i : Nat), unit.byteIndex text n = some i ↔
      ∃ p : text.Pos, p.offset.byteIdx = i ∧ unit.measure (text.sliceTo p).copy = n) ∧
    (∀ (text : String) (n : Nat), unit.byteIndex text n = none ↔
      ¬∃ p : text.Pos, unit.measure (text.sliceTo p).copy = n) ∧
    ∀ (a b c : String) (spans : List Span) (style : SpanStyle),
      RichText.covered? ⟨a ++ b ++ c, spans, unit⟩ ⟨unit.measure a, unit.measure b, style⟩ =
        some b := by
  have found (text : String) (n i : Nat) : unit.byteIndex text n = some i ↔
      ∃ p : text.Pos, p.offset.byteIdx = i ∧ unit.measure (text.sliceTo p).copy = n :=
    byteIndex_eq_some_iff.trans exists_beginning_iff
  refine ⟨found, fun text n => ?_, fun a b c spans style => RichText.covered?_eq rfl rfl rfl⟩
  constructor
  · rintro missing ⟨p, hp⟩
    have here := (found text n p.offset.byteIdx).2 ⟨p, rfl, hp⟩
    rw [missing] at here
    cases here
  · intro h
    cases hi : unit.byteIndex text n with
    | none => rfl
    | some i =>
      obtain ⟨p, -, hp⟩ := (found text n i).1 hi
      exact absurd ⟨p, hp⟩ h

/-- The second half of a character of two units is no position. -/
example : utf16.byteIndex "a😀é" 2 = none ∧ utf16.byteIndex "a😀é" 3 = some 5 ∧
    utf8.byteIndex "a😀é" 2 = none ∧ chars.byteIndex "a😀é" 2 = some 5 := by decide

end OffsetUnit

end MarkdownSpans
