import MarkdownSpans.Text.Space

/-!
# Decimal numerals

Item numbers are words of 64 bits: `maxWord` is the greatest one, `word?` reads a numeral that
fits a word, and `digitCount` is the length of a numeral without writing it.
-/

namespace MarkdownSpans

/-- The greatest number of 64 bits. -/
def maxWord : Nat := Nat.pow 2 64 - 1

/-- The number of decimal digits of a number. -/
def digitCount (n : Nat) : Nat := if n < 10 then 1 else digitCount (n / 10) + 1

/-- The value of a decimal digit. -/
def digitValue (c : Char) : Nat := c.toNat - '0'.toNat

/-- The value of a list of decimal digits. -/
def digitsValue (ds : List Char) : Nat := ds.foldl (fun n d => 10 * n + digitValue d) 0

/-- The number a list of characters stands for: an optional plus sign and at least one digit, of a
value that fits 64 bits. -/
def wordChars? (cs : List Char) : Option Nat :=
  let digits := match cs with
    | '+' :: rest => rest
    | _ => cs
  if !digits.isEmpty && digits.all Char.isDigit && digitsValue digits ≤ maxWord then
    some (digitsValue digits)
  else
    none

/-- The number that a text stands for, white space around it left aside. -/
def word? (text : String) : Option Nat := wordChars? (trimChars text.toList)

end MarkdownSpans
