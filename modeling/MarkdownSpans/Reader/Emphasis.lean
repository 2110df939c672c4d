import MarkdownSpans.Reader.Piece

/-!
# Emphasis

The marks among the pieces of a text are matched: a run that may close takes the nearest run before
it that may open, is of the same mark and agrees with it in length. Two marks of each are taken for
strong emphasis first, from the inside out, and a last one for plain emphasis. What is not matched
is text. `phrases` does so for the pieces of a text and of the links in it.
-/

namespace MarkdownSpans

/-- A phrase of a text: an event, or phrases in an inline container. -/
inductive Phrase where
  | single (event : Event) (extent : Extent)
  | within (tag : Tag) (extent : Extent) (children : List Phrase)
  deriving Inhabited

/-- A part of a text whose marks are not matched yet. -/
inductive UnmatchedPart where
  | phrase (phrase : Phrase)
  | marks (mark : Char) (canOpen canClose : Bool) (extent : Extent)
  deriving Inhabited

/-- A run of marks that may open emphasis, with the phrases before it since the run before it, the
latest first. -/
structure OpenRun where
  mark : Char
  /-- Where the marks that are not taken yet start, and how many they are. -/
  start : Nat
  count : Nat
  /-- How many marks the run had. -/
  length : Nat
  /-- Whether the run may close emphasis, too. -/
  isBoth : Bool
  before : List Phrase

/-- The closing runs that match alike. -/
inductive CloserClass where
  | closeOnly (mark : Char)
  | byLength (mark : Char) (remainder : Nat)
  | tilde
  deriving DecidableEq, Repr

/-- The parts of a text so far. -/
structure RunStack where
  /-- The open runs, innermost first. -/
  runs : List OpenRun := []
  /-- The phrases since the innermost open run, the latest first. -/
  reversed : List Phrase := []
  /-- How many of the outer open runs are known to match no closing run of a class. -/
  floors : List (CloserClass × Nat) := []

/-- Whether a closing run agrees in length with an open run: tildes are equally many; where one of
two runs could both open and close, the lengths do not add up to a multiple of three, unless both
are one. -/
def agrees (mark : Char) (length : Nat) (isBoth : Bool) (o : OpenRun) : Bool :=
  o.mark == mark && (mark != '~' || length == o.length)
    && ((!isBoth && !o.isBoth) || (length + o.length) % 3 != 0 || length % 3 == 0)

namespace RunStack

/-- Add a phrase. -/
def push (phrase : Phrase) (r : RunStack) : RunStack := { r with reversed := phrase :: r.reversed }

/-- The known number of outer runs that match no closing run of a class. -/
def floor (c : CloserClass) (r : RunStack) : Nat := (r.floors.lookup c).getD 0

/-- Note that no open run matches a closing run of a class. -/
def setFloor (c : CloserClass) (r : RunStack) : RunStack :=
  { r with floors := (c, r.runs.length) :: r.floors.filter (·.1 ≠ c) }

/-- Limit the floors to the number of open runs. -/
def trimFloors (r : RunStack) : RunStack :=
  { r with floors := r.floors.map fun (c, n) => (c, min n r.runs.length) }

/-- How many outer runs need not be looked at for a closing run. -/
def floorFor (mark : Char) (length : Nat) (isBoth : Bool) (r : RunStack) : Nat :=
  if mark == '~' then
    r.floor .tilde
  else
    let byLength := r.floor (.byLength mark (length % 3))
    if isBoth then byLength else min byLength (r.floor (.closeOnly mark))

/-- Note that no open run matches a closing run. -/
def raiseFloor (mark : Char) (length : Nat) (isBoth : Bool) (r : RunStack) : RunStack :=
  if mark == '~' then
    r.setFloor .tilde
  else if mark == '_' then
    r.setFloor (if isBoth then .byLength mark (length % 3) else .closeOnly mark)
  else
    let r := r.setFloor (.byLength mark (length % 3))
    if isBoth then r else r.setFloor (.closeOnly mark)

/-- Add an open run. -/
def enter (o : OpenRun) (r : RunStack) : RunStack :=
  let floors :=
    if o.mark == '~' then
      r.floors.map fun (c, n) => (c, if c = .tilde then min n r.runs.length else n)
    else
      r.floors
  { runs := o :: r.runs, reversed := [], floors }

/-- Marks as text, each for itself, the last one first. -/
def plainMarks (mark : Char) (start : Nat) : Nat → List Phrase
  | 0 => []
  | n + 1 =>
    .single (.text (String.singleton mark)) ⟨start + n, start + n + 1⟩ :: plainMarks mark start n

/-- Make the innermost open run text. -/
def giveUp (r : RunStack) : RunStack :=
  match r.runs with
  | [] => r
  | o :: rest =>
    { r with runs := rest, reversed := r.reversed ++ plainMarks o.mark o.start o.count ++ o.before }

/-- What one or two marks on each side of phrases make. -/
def emphasisTag (mark : Char) (count : Nat) : Tag :=
  if mark == '~' then .strikethrough else if count == 2 then .strong else .emphasis

/-- Phrases between so many marks on each side, from the inside out. -/
def wrap (mark : Char) : Nat → Extent → List Phrase → List Phrase
  | 0, _, children => children
  | 1, inner, children =>
    [.within (emphasisTag mark 1) ⟨inner.start - 1, inner.stop + 1⟩ children]
  | n + 2, inner, children =>
    let outer : Extent := ⟨inner.start - 2, inner.stop + 2⟩
    wrap mark n outer [.within (emphasisTag mark 2) outer children]

/-- Match marks of a closing run of some length that start at a position, as many as can be; gives
how many are left. -/
def closeRun (mark : Char) (length : Nat) (isBoth : Bool) :
    Nat → Nat → Nat → RunStack → Nat × RunStack
  | 0, _, count, r => (count, r)
  | fuel + 1, pos, count, r =>
    if count == 0 then
      (0, r)
    else
      let searched := r.runs.length - r.floorFor mark length isBoth
      match (r.runs.take searched).findIdx? (agrees mark length isBoth) with
      | none => (count, r.raiseFloor mark length isBoth)
      | some above =>
        let r := (r.runs.take above).foldl (fun r _ => r.giveUp) r
        match r.runs with
        | [] => (count, r)
        | o :: rest =>
          let taken := min count o.count
          let wrapped := wrap mark taken ⟨o.start + o.count, pos⟩ r.reversed.reverse
          let outer : RunStack := { r with runs := rest, reversed := o.before }.trimFloors
          let r : RunStack :=
            if taken < o.count then
              let left := outer.enter { o with count := o.count - taken, isBoth }
              { left with reversed := wrapped }
            else
              { outer with reversed := wrapped ++ outer.reversed }
          closeRun mark length isBoth fuel (pos + taken) (count - taken) r

/-- Add a run of marks. -/
def addMarks (mark : Char) (opens closes : Bool) (extent : Extent) (r : RunStack) : RunStack :=
  let length := extent.stop - extent.start
  let isBoth := opens && closes
  let (count, r) :=
    if closes then closeRun mark length isBoth (length + 1) extent.start length r else (length, r)
  let start := extent.stop - count
  if count == 0 then r
  else if opens then r.enter ⟨mark, start, count, length, isBoth, r.reversed⟩
  else { r with reversed := plainMarks mark start count ++ r.reversed }

/-- Add a part of a text. -/
def add (r : RunStack) : UnmatchedPart → RunStack
  | .phrase phrase => r.push phrase
  | .marks mark opens closes extent => r.addMarks mark opens closes extent

/-- All phrases, the open runs being text. -/
def finish (r : RunStack) : List Phrase :=
  (r.runs.foldl (fun r _ => r.giveUp) r).reversed.reverse

end RunStack

/-- The phrases of a text whose marks are not matched yet. -/
def matchMarks (parts : List UnmatchedPart) : List Phrase := (parts.foldl RunStack.add {}).finish

/-- The tag of a link. -/
def LinkHead.tag (head : LinkHead) : Tag :=
  if head.isImage then .image head.type head.url head.title
  else .link head.type head.url head.title

mutual

/-- A piece as a part whose marks are not matched yet. -/
def Piece.unmatched (s : Source) : Piece → UnmatchedPart
  | .text extent => .phrase (.single (.text (s.text extent.start extent.stop)) extent)
  | .reference text extent => .phrase (.single (.text text) extent)
  | .marks mark opens closes extent => .marks mark opens closes extent
  | .code content extent => .phrase (.single (.code content) extent)
  | .html content extent => .phrase (.single (.inlineHtml content) extent)
  | .softBreak extent => .phrase (.single .softBreak extent)
  | .hardBreak _ extent => .phrase (.single .hardBreak extent)
  | .link head extent children =>
    .phrase (.within head.tag extent (matchMarks (unmatchedParts s children)))

/-- Pieces as parts whose marks are not matched yet. -/
def unmatchedParts (s : Source) : List Piece → List UnmatchedPart
  | [] => []
  | piece :: rest => piece.unmatched s :: unmatchedParts s rest

end

/-- The phrases of a text. -/
def phrases (s : Source) (pieces : List Piece) : List Phrase := matchMarks (unmatchedParts s pieces)

end MarkdownSpans
