import MarkdownSpans.Text.Decimal
import MarkdownSpans.Text.Entity
import MarkdownSpans.Text.Punctuation

/-!
# Escapes

A backslash takes the meaning of punctuation away, and a character reference such as `&amp;` or
`&#38;` stands for another text.
-/

namespace MarkdownSpans

/-- The character of a numeric reference. Numbers that are no character, and zero, stand for the
replacement character. -/
def referencedChar (n : Nat) : Char :=
  if n == 0 || (0xd800 ≤ n && n ≤ 0xdfff) || 0x10ffff < n then Char.ofNat 0xfffd else Char.ofNat n

/-- A reference by number, of which at most `limit` digits count, from behind its lead: its text
and its length. -/
def numericReference? (isDigit : Char → Bool) (value : List Char → Nat) (limit : Nat)
    (cs : List Char) : Option (String × Nat) :=
  let digits := (cs.take limit).takeWhile isDigit
  if !digits.isEmpty && (cs.drop digits.length).head? == some ';' then
    some (String.singleton (referencedChar (value digits)), digits.length + 1)
  else
    none

/-- No character reference is longer. -/
def maxReferenceLength : Nat := 40

/-- The text of the character reference that a text starts with, and the length of the
reference. -/
def characterReference? : List Char → Option (String × Nat)
  | '&' :: '#' :: 'x' :: cs | '&' :: '#' :: 'X' :: cs =>
    (numericReference? isHexDigit hexValue 6 cs).map fun (text, n) => (text, n + 3)
  | '&' :: '#' :: cs =>
    (numericReference? Char.isDigit digitsValue 7 cs).map fun (text, n) => (text, n + 2)
  | '&' :: cs =>
    let name := cs.takeWhile Char.isAlphanum
    if (cs.drop name.length).head? == some ';' then
      (namedEntity? name).map fun text => (text, name.length + 2)
    else
      none
  | _ => none

/-- A text with its escapes resolved. Carriage returns are left out. -/
def unescape : List Char → List Char
  | [] => []
  | '\\' :: c :: rest =>
    if isAsciiPunctuation c then c :: unescape rest else '\\' :: unescape (c :: rest)
  | '\r' :: rest => unescape rest
  | c :: rest =>
    match characterReference? (c :: rest) with
    | some (text, n) => text.toList ++ unescape (rest.drop (n - 1))
    | none => c :: unescape rest
  termination_by cs => cs.length
  decreasing_by all_goals simp_wf; try omega

/-- A text with its escapes resolved. -/
def unescapeText (text : String) : String := String.ofList (unescape text.toList)

end MarkdownSpans
