import MarkdownSpans.Text.Decimal
import MarkdownSpans.Text.Hex
import MarkdownSpans.Text.Split
import MarkdownSpans.Toml.Value

/-!
# Booleans, numbers and moments of TOML

A value without quotes or brackets is one word, which `scalar?` reads.
-/

namespace MarkdownSpans.Toml

/-! ### Numbers -/

/-- The digits of a numeral in which single underscores may stand between digits. -/
def groupedDigits? (isDigit : Char → Bool) (cs : List Char) : Option (List Char) :=
  let groups := splitAtChar '_' cs
  if groups.all fun g => !g.isEmpty && g.all isDigit then some groups.flatten else none

/-- The value of a decimal numeral; no zero stands before other digits. -/
def decimal? (cs : List Char) : Option Nat :=
  (groupedDigits? Char.isDigit cs).bind fun digits =>
    if digits.head? == some '0' && 1 < digits.length then none else some (digitsValue digits)

/-- The value of digits in a radix. -/
def radixValue (radix : Nat) (ds : List Char) : Nat :=
  ds.foldl (fun n d => radix * n + hexDigitValue d) 0

/-- A word without its sign, and whether the sign is a minus. -/
def unsigned : List Char → Bool × List Char
  | '-' :: rest => (true, rest)
  | '+' :: rest => (false, rest)
  | cs => (false, cs)

/-- The value of an integer of any size. -/
def wideInteger? : List Char → Option Int
  | '0' :: 'x' :: cs => (groupedDigits? isHexDigit cs).map fun ds => (radixValue 16 ds : Int)
  | '0' :: 'o' :: cs =>
    (groupedDigits? (fun c => '0' ≤ c && c ≤ '7') cs).map fun ds => (radixValue 8 ds : Int)
  | '0' :: 'b' :: cs =>
    (groupedDigits? (fun c => c == '0' || c == '1') cs).map fun ds => (radixValue 2 ds : Int)
  | cs =>
    let (isNegative, digits) := unsigned cs
    (decimal? digits).map fun n => if isNegative then -(n : Int) else n

/-- The value of an integer of at most 128 bits. -/
def integer? (cs : List Char) : Option Int :=
  (wideInteger? cs).filter fun n => -(Nat.pow 2 127 : Nat) ≤ n && n < (Nat.pow 2 128 : Nat)

/-- Whether a word is a number with a fraction, an exponent or both, infinite or no number. -/
def isFloat (cs : List Char) : Bool :=
  let number := (unsigned cs).2
  let mantissa := number.takeWhile fun c => c != 'e' && c != 'E'
  let exponent := number.drop mantissa.length
  let whole := mantissa.takeWhile (· != '.')
  let fraction := mantissa.drop whole.length
  let isGrouped (ds : List Char) : Bool := (groupedDigits? Char.isDigit ds).isSome
  number == "inf".toList || number == "nan".toList ||
    ((!fraction.isEmpty || !exponent.isEmpty) && (decimal? whole).isSome
      && (fraction.isEmpty || isGrouped (fraction.drop 1))
      && (exponent.isEmpty || isGrouped (unsigned (exponent.drop 1)).2))

/-- Whether a number with digits `ds` before the exponent and a decimal point before the last
`places` of them is finite in double precision: it is less than the least number that rounds to
infinity. -/
def isFinite (ds : List Char) (places : Nat) (exponent : Int) : Bool :=
  let digits := ds.dropWhile (· == '0')
  let scale := exponent - places
  let magnitude := digits.length + scale
  digits.isEmpty || magnitude < 300 ||
    (magnitude < 400 &&
      digitsValue digits * Nat.pow 10 scale.toNat <
        (Nat.pow 2 1024 - Nat.pow 2 970) * Nat.pow 10 (-scale).toNat)

/-- Whether a float, if its digits are given, is finite. -/
def isFiniteFloat (cs : List Char) : Bool :=
  let number := (unsigned cs).2.filter (· != '_')
  let mantissa := number.takeWhile fun c => c != 'e' && c != 'E'
  let (isNegative, power) := unsigned (number.drop (mantissa.length + 1))
  let places := (mantissa.dropWhile (· != '.')).length - 1
  let exponent : Int := if isNegative then -(digitsValue power : Int) else digitsValue power
  isFinite (mantissa.filter Char.isDigit) places exponent

/-! ### Moments -/

/-- The number of so many digits that a text starts with, and what follows them. -/
def fixedDigits? (count : Nat) (cs : List Char) : Option (Nat × List Char) :=
  let digits := cs.take count
  if digits.length == count && digits.all Char.isDigit then
    some (digitsValue digits, cs.drop count)
  else
    none

/-- A text behind a character that it has to start with. -/
def dropChar? (expected : Char) : List Char → Option (List Char)
  | [] => none
  | c :: rest => if c == expected then some rest else none

/-- The number of days of a month. -/
def daysInMonth (year month : Nat) : Nat :=
  if month == 2 then
    if year % 4 == 0 && (year % 100 != 0 || year % 400 == 0) then 29 else 28
  else if [4, 6, 9, 11].contains month then 30
  else 31

/-- What follows the date that a text starts with. -/
def dropDate? (cs : List Char) : Option (List Char) := do
  let (year, cs) ← fixedDigits? 4 cs
  let (month, cs) ← fixedDigits? 2 (← dropChar? '-' cs)
  let (day, cs) ← fixedDigits? 2 (← dropChar? '-' cs)
  if 1 ≤ month && month ≤ 12 && 1 ≤ day && day ≤ daysInMonth year month then some cs else none

/-- What follows the hours and minutes that a text starts with. -/
def dropMinutes? (cs : List Char) : Option (List Char) := do
  let (hour, cs) ← fixedDigits? 2 cs
  let (minute, cs) ← fixedDigits? 2 (← dropChar? ':' cs)
  if hour ≤ 23 && minute ≤ 59 then some cs else none

/-- What follows the time that a text starts with. Seconds and parts of them may be left out. -/
def dropTime? (cs : List Char) : Option (List Char) := do
  let cs ← dropMinutes? cs
  match cs with
  | ':' :: cs =>
    let (second, cs) ← fixedDigits? 2 cs
    if 60 < second then
      none
    match cs with
    | '.' :: cs =>
      if (cs.head?.map Char.isDigit).getD false then some (cs.dropWhile Char.isDigit) else none
    | cs => some cs
  | cs => some cs

/-- Whether a text is the offset of a time from the universal one, or nothing. -/
def isOffset : List Char → Bool
  | [] => true
  | ['Z'] | ['z'] => true
  | sign :: cs => (sign == '+' || sign == '-') && dropMinutes? cs == some []

/-- Whether a word is a time, a date, or a date and a time. -/
def isMoment (cs : List Char) : Bool :=
  dropTime? cs == some [] ||
    match dropDate? cs with
    | none => false
    | some [] => true
    | some (mark :: time) =>
      (mark == 'T' || mark == 't' || mark == ' ') && ((dropTime? time).any isOffset)

/-! ### Words -/

/-- Whether a character may stand in a word. -/
def isWordChar (c : Char) : Bool :=
  c.isAlphanum || c == '+' || c == '-' || c == '_' || c == '.' || c == ':'

/-- The value of a word. -/
def wordValue? (cs : List Char) : Option TomlValue :=
  if cs == "true".toList then some (.boolean true)
  else if cs == "false".toList then some (.boolean false)
  else if isMoment cs then some (.moment (String.ofList cs))
  else if isFloat cs then
    if isFiniteFloat cs then some (.float (String.ofList cs)) else none
  else (integer? cs).map .integer

/-- The value of the word that a text starts with, and what follows it. A date may be followed by a
space and a time. -/
def scalar? (cs : List Char) : Option (TomlValue × List Char) :=
  let word := cs.takeWhile isWordChar
  let rest := cs.drop word.length
  match dropDate? word, rest with
  | some [], ' ' :: time =>
    if (time.head?.map Char.isDigit).getD false then
      let moment := word ++ ' ' :: time.takeWhile isWordChar
      if isMoment moment then some (.moment (String.ofList moment), cs.drop moment.length) else none
    else
      (wordValue? word).map (·, rest)
  | _, _ => (wordValue? word).map (·, rest)

end MarkdownSpans.Toml
