/-!
# Blank characters

Two classes of white space occur: the blanks of ASCII, which separate the parts of a link
definition, and the `White_Space` characters of Unicode, which separate words.

Nothing that runs imports Mathlib, so what its `List.rdropWhile` and `List.rtakeWhile` do is spelled
out here; proofs use the library's (`dropRightWhile_eq_rdropWhile`, `takeRightWhile_eq_rtakeWhile`).
-/

namespace MarkdownSpans

/-- Space, tab, line feed, form feed and carriage return. -/
def isAsciiSpace (c : Char) : Bool :=
  c == ' ' || c == '\t' || c == '\n' || c == '\x0c' || c == '\r'

/-- The ranges of code points with the Unicode property `White_Space`. -/
def spaceRanges : List (Nat × Nat) :=
  [(0x09, 0x0d), (0x20, 0x20), (0x85, 0x85), (0xa0, 0xa0), (0x1680, 0x1680), (0x2000, 0x200a),
   (0x2028, 0x2029), (0x202f, 0x202f), (0x205f, 0x205f), (0x3000, 0x3000)]

/-- Whether a character has the Unicode property `White_Space`. -/
def isSpace (c : Char) : Bool :=
  spaceRanges.any fun (first, last) => first ≤ c.toNat && c.toNat ≤ last

/-- A list without the elements of a class at its end. -/
def dropRightWhile {α : Type} (p : α → Bool) (cs : List α) : List α :=
  (cs.reverse.dropWhile p).reverse

/-- The elements of a class at the end of a list. -/
def takeRightWhile {α : Type} (p : α → Bool) (cs : List α) : List α :=
  (cs.reverse.takeWhile p).reverse

/-- A text without the white space around it. -/
def trimChars (cs : List Char) : List Char := dropRightWhile isSpace (cs.dropWhile isSpace)

/-- The first word of a text, if it has one. -/
def firstWord? (text : String) : Option String :=
  match (text.toList.dropWhile isSpace).takeWhile (!isSpace ·) with
  | [] => none
  | word => some (String.ofList word)

/-- A text with the ASCII capitals in lower case. -/
def lowerAscii (text : String) : String := String.ofList (text.toList.map Char.toLower)

theorem isSpace_of_isAsciiSpace {c : Char} (h : isAsciiSpace c = true) : isSpace c = true := by
  simp only [isAsciiSpace, Bool.or_eq_true, beq_iff_eq] at h
  rcases h with (((rfl | rfl) | rfl) | rfl) | rfl <;> rfl

end MarkdownSpans
