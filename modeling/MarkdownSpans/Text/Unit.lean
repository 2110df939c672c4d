/-!
# Units of text

Offsets into a text are counted in UTF-16 code units, in UTF-8 bytes or in characters.
`OffsetUnit.measure` is the length of a text in a unit, `OffsetUnit.byteIndex` finds the byte
position of a count of units, and `sliceBytes` cuts a piece out between two byte positions; both
refuse a position that is past the end or inside a character.
-/

namespace MarkdownSpans

/-- What an offset counts. -/
inductive OffsetUnit where
  /-- UTF-16 code units, the unit chat platforms count in. -/
  | utf16
  /-- UTF-8 bytes. -/
  | utf8
  /-- Characters. -/
  | chars
  deriving DecidableEq, Repr, Inhabited

namespace OffsetUnit

/-- The number of units one character takes. -/
def width : OffsetUnit → Char → Nat
  | utf16, c => if c.val < 0x10000 then 1 else 2
  | utf8, c => c.utf8Size
  | chars, _ => 1

/-- The number of units a list of characters takes. -/
def measureChars (unit : OffsetUnit) : List Char → Nat
  | [] => 0
  | c :: rest => unit.width c + unit.measureChars rest

/-- The length of a text in a unit. -/
def measure (unit : OffsetUnit) (text : String) : Nat := unit.measureChars text.toList

theorem measureChars_append (unit : OffsetUnit) (a b : List Char) :
    unit.measureChars (a ++ b) = unit.measureChars a + unit.measureChars b := by
  induction a with
  | nil => simp [measureChars]
  | cons c rest ih => simp [measureChars, ih, Nat.add_assoc]

@[simp] theorem measure_empty (unit : OffsetUnit) : unit.measure "" = 0 := rfl

@[simp] theorem measure_append (unit : OffsetUnit) (a b : String) :
    unit.measure (a ++ b) = unit.measure a + unit.measure b := by
  simp [measure, measureChars_append]

/-- The byte position that lies a count of units into a list of characters. -/
def byteIndexChars (unit : OffsetUnit) : List Char → Nat → Option Nat
  | _, 0 => some 0
  | [], _ + 1 => none
  | c :: rest, n + 1 =>
    if unit.width c ≤ n + 1 then
      (unit.byteIndexChars rest (n + 1 - unit.width c)).map (c.utf8Size + ·)
    else
      none

/-- The byte position that lies `units` units into `text`; none past the end of the text or
inside a character. Bytes are not counted one by one. -/
def byteIndex (unit : OffsetUnit) (text : String) (units : Nat) : Option Nat :=
  match unit with
  | utf8 => if String.Pos.Raw.isValid text ⟨units⟩ then some units else none
  | _ => unit.byteIndexChars text.toList units

end OffsetUnit

/-- The characters from a byte position on; none past the end or inside a character. -/
def dropBytes : List Char → Nat → Option (List Char)
  | cs, 0 => some cs
  | [], _ + 1 => none
  | c :: rest, n + 1 => if c.utf8Size ≤ n + 1 then dropBytes rest (n + 1 - c.utf8Size) else none

/-- The characters up to a byte position; none past the end or inside a character. -/
def takeBytes : List Char → Nat → Option (List Char)
  | _, 0 => some []
  | [], _ + 1 => none
  | c :: rest, n + 1 =>
    if c.utf8Size ≤ n + 1 then (takeBytes rest (n + 1 - c.utf8Size)).map (c :: ·) else none

/-- The characters between two byte positions. -/
def sliceChars (cs : List Char) (start stop : Nat) : Option (List Char) :=
  if start ≤ stop then (dropBytes cs start).bind (takeBytes · (stop - start)) else none

/-- The piece of a text between two byte positions; none if the positions are in the wrong order,
past the end or inside a character. -/
def sliceBytes (text : String) (start stop : Nat) : Option String :=
  (sliceChars text.toList start stop).map String.ofList

end MarkdownSpans
