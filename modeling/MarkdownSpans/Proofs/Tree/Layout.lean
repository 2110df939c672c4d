import MarkdownSpans.Proofs.Tree.LinePlace
import MarkdownSpans.Proofs.Tree.Reread

/-!
# Plain sources

A plain source is a sequence of segments: blank lines, link definitions, paragraphs, thematic breaks
and headings. Its events report the blocks, its ranges the definitions. The blocks that are built
from them spell the source: what each of them records, its blank lines before, its content and its
terminators, is the text of the source from the end of the last block on.
-/

namespace MarkdownSpans

open Line (Chained joined size)

/-- What things that stand one behind another give, each of them at its place. -/
def spread {α β : Type} (width : α → Nat) (f : Nat → α → List β) : Nat → List α → List β
  | _, [] => []
  | start, a :: rest => f start a ++ spread width f (start + width a) rest

theorem spread_append {α β : Type} (width : α → Nat) (f : Nat → α → List β) (start : Nat)
    (as bs : List α) :
    spread width f start (as ++ bs) =
      spread width f start as ++ spread width f (start + (as.map width).sum) bs := by
  induction as generalizing start with
  | nil => rfl
  | cons a rest ih => simp [spread, ih, Nat.add_assoc]

theorem spread_map {α β γ : Type} (g : γ → α) (width : α → Nat) (f : Nat → α → List β) (start : Nat)
    (cs : List γ) :
    spread width f start (cs.map g) =
      spread (fun c => width (g c)) (fun n c => f n (g c)) start cs := by
  induction cs generalizing start with
  | nil => rfl
  | cons c rest ih => rw [List.map_cons, spread, spread, ih]

/-! ### Segments -/

/-- The line of a heading. -/
def headingLine (level : Nat) (text : String) (newline : Newline) : Line :=
  ⟨String.ofList (List.replicate level '#' ++ [' ']) ++ text, newline⟩

/-- A piece of a plain source. -/
inductive Segment where
  /-- A line that belongs to no block. -/
  | blank (line : Line)
  /-- A link definition on a line. -/
  | definition (line : Line)
  /-- A paragraph by its lines. -/
  | paragraph (init : List Line) (last : Line)
  | thematicBreak (line : Line)
  | heading (level : Nat) (text : String) (newline : Newline)

namespace Segment

/-- The lines of a segment but the last. -/
def init : Segment → List Line
  | paragraph init _ => init
  | _ => []

/-- The last line of a segment. -/
def last : Segment → Line
  | blank line | definition line | paragraph _ line | thematicBreak line => line
  | heading level text newline => headingLine level text newline

/-- The lines of a segment. -/
def lines (s : Segment) : List Line := s.init ++ [s.last]

/-- The lines of some segments. -/
abbrev linesOf (segments : List Segment) : List Line := segments.flatMap (·.lines)

@[simp] theorem lines_blank (line : Line) : (blank line).lines = [line] := rfl

@[simp] theorem lines_definition (line : Line) : (definition line).lines = [line] := rfl

@[simp] theorem lines_paragraph (init : List Line) (last : Line) :
    (paragraph init last).lines = init ++ [last] := rfl

@[simp] theorem lines_thematicBreak (line : Line) : (thematicBreak line).lines = [line] := rfl

@[simp] theorem lines_heading (level : Nat) (text : String) (newline : Newline) :
    (heading level text newline).lines = [headingLine level text newline] := rfl

/-- The number of bytes of a segment. -/
def width (s : Segment) : Nat := size s.lines

/-- The characters of a segment without its last terminator. -/
def body (s : Segment) : List Char := joined s.init ++ s.last.text.toList

/-- Definitions are closed, and no paragraph ends with an empty line, which would be taken for a
terminator. That blank lines are blank and that other lines have no white space around them does not
matter. -/
def Plain : Segment → Prop
  | definition line => ClosedDefinition line.text.toList
  | paragraph _ last => last.text ≠ ""
  | blank _ | thematicBreak _ | heading .. => True

/-- Whether no event reports the segment. -/
def isLoose : Segment → Bool
  | blank _ | definition _ => true
  | _ => false

section Events

variable (whole : Nat → Bool) (start : Nat)

/-- The range of a block that starts at a place. It reaches over the last terminator if `whole` says
so of the place. -/
def range (s : Segment) : ByteRange :=
  ⟨start, start + byteLength (s.body ++ if whole start then s.last.newline.chars else [])⟩

@[simp] theorem start_range (s : Segment) : (s.range whole start).start = start := rfl

/-- The range of a definition. -/
def definitions : Segment → List ByteRange
  | definition line => [(definition line).range whole start]
  | _ => []

/-- The text of a line. -/
def textEvent (text : String) : RangedEvent := ⟨.text text, ⟨start, start + byteLength text.toList⟩⟩

/-- A line of a paragraph with another one after it. -/
def lineEvents (line : Line) : List RangedEvent :=
  [textEvent start line.text,
    ⟨.softBreak, ⟨start + byteLength line.text.toList, start + byteLength line.chars⟩⟩]

/-- The events of a block. -/
def events : Segment → List RangedEvent
  | blank _ | definition _ => []
  | paragraph init last =>
    let range := (paragraph init last).range whole start
    ⟨.enter .paragraph, range⟩ ::
      (spread (byteLength ·.chars) lineEvents start init ++
        [textEvent (start + size init) last.text, ⟨.leave .paragraph, range⟩])
  | thematicBreak line => [⟨.rule, (thematicBreak line).range whole start⟩]
  | heading level text newline =>
    let range := (heading level text newline).range whole start
    [⟨.enter (.heading level), range⟩, textEvent (start + level + 1) text,
      ⟨.leave .heading, range⟩]

/-- The events of segments that start at a place. -/
def eventsFrom (segments : List Segment) : List RangedEvent :=
  spread width (events whole) start segments

/-- The ranges of the definitions among segments that start at a place. -/
def definitionsFrom (segments : List Segment) : List ByteRange :=
  spread width (definitions whole) start segments

theorem eventsFrom_cons (s : Segment) (rest : List Segment) :
    eventsFrom whole start (s :: rest) =
      s.events whole start ++ eventsFrom whole (start + s.width) rest := rfl

theorem definitionsFrom_cons (s : Segment) (rest : List Segment) :
    definitionsFrom whole start (s :: rest) =
      s.definitions whole start ++ definitionsFrom whole (start + s.width) rest := rfl

theorem events_of_isLoose {s : Segment} (h : s.isLoose = true) : s.events whole start = [] := by
  cases s with
  | blank _ | definition _ => rfl
  | paragraph _ _ | thematicBreak _ | heading _ _ _ => cases h

theorem definitions_of_block {s : Segment} (h : s.isLoose = false) :
    s.definitions whole start = [] := by
  cases s with
  | blank _ | paragraph _ _ | thematicBreak _ | heading _ _ _ => rfl
  | definition _ => cases h

variable {whole start} in
theorem le_start_of_mem_definitionsFrom {segments : List Segment} {range : ByteRange}
    (h : range ∈ definitionsFrom whole start segments) : start ≤ range.start := by
  induction segments generalizing start with
  | nil => cases h
  | cons s rest ih =>
    rcases List.mem_append.1 h with h | h
    · cases s with
      | definition line =>
        rw [List.mem_singleton.1 h]
        exact Nat.le_refl _
      | blank _ | paragraph _ _ | thematicBreak _ | heading _ _ _ => cases h
    · have := ih h
      omega

end Events

theorem sum_width (segments : List Segment) :
    (segments.map width).sum = size (linesOf segments) := by
  induction segments with
  | nil => rfl
  | cons s rest ih => simp [ih, linesOf, width]

theorem definitionsFrom_append (whole : Nat → Bool) (x : List Line) (as bs : List Segment) :
    definitionsFrom whole (size x) (as ++ bs) =
      definitionsFrom whole (size x) as ++ definitionsFrom whole (size (x ++ linesOf as)) bs := by
  rw [definitionsFrom, spread_append, sum_width, Line.size_append]
  rfl

/-- The segments are all loose, so that they wait for the next block. -/
def Waiting (segments : List Segment) : Prop := ∀ s ∈ segments, s.isLoose = true ∧ s.Plain

theorem Waiting.nil : Waiting [] := nofun

theorem Waiting.concat {segments : List Segment} {s : Segment} (h : Waiting segments)
    (hloose : s.isLoose = true) (hs : s.Plain) : Waiting (segments ++ [s]) := by
  intro t ht
  rcases List.mem_append.1 ht with ht | ht
  · exact h t ht
  · rw [List.mem_singleton.1 ht]
    exact ⟨hloose, hs⟩

/-! ### Places of segments -/

variable {all x b : List Line} {s : Segment}

theorem joined_lines (s : Segment) : joined s.lines = s.body ++ s.last.newline.chars := by
  simp [lines, body, Line.chars]

theorem Plain.last_body (h : s.Plain) (hlast : Unbroken s.last.text.toList) :
    ∀ c ∈ s.body.getLast?, isLineEnd c = false := by
  by_cases hempty : s.last.text.toList = []
  · -- Only a segment of one line has an empty one at its end.
    have alone : s.init = [] := by
      cases s with
      | paragraph init last => exact absurd (String.toList_eq_nil_iff.1 hempty) h
      | blank _ | definition _ | thematicBreak _ | heading _ _ _ => rfl
    simp [body, alone, hempty]
  · exact hlast.getLast?_append hempty _

variable (hall : all = x ++ (s.lines ++ b))

include hall

theorem joined_all :
    joined all = joined x ++ (s.body ++ (s.last.newline.chars ++ joined b)) := by
  rw [hall]
  simp [joined_lines]

theorem slice_body :
    sliceChars (joined all) (size x) (size x + byteLength s.body) = some s.body := by
  rw [joined_all hall]
  simpa [size] using sliceChars_append (joined x) s.body (s.last.newline.chars ++ joined b)

theorem blockEnd?_range (h : Chained all) (hs : s.Plain) (whole : Nat → Bool) :
    blockEnd? (joined all) (s.range whole (size x)) =
      some ⟨size x + byteLength s.body, s.last.newline, size (x ++ s.lines)⟩ := by
  have chained : Chained ((x ++ s.init) ++ s.last :: b) := by
    simpa [hall, lines] using h
  have cut : ∃ left, s.last.newline.chars =
      (if whole (size x) then s.last.newline.chars else []) ++ left := by
    split
    · exact ⟨[], by simp⟩
    · exact ⟨_, rfl⟩
  obtain ⟨left, hleft⟩ := cut
  have found := blockEnd?_append (joined x) (hs.last_body chained.unbroken) chained.ends hleft
  rw [joined_all hall]
  simpa [range, size, joined_lines, Nat.add_assoc] using found

theorem lineStart?_segment (h : Chained all) : lineStart? (joined all) (size x) = some (size x) := by
  subst hall
  exact lineStart?_joined h (by simp [lines])

end Segment

/-! ### What blocks spell -/

/-- The inlines of a line of a paragraph. -/
def Line.inlines (line : Line) : List Inline :=
  .literal line.text :: if line.newline.isAbsent then [] else [.lineBreak line.newline false]

theorem Line.inlines_of_ne_absent {line : Line} (h : line.newline ≠ .absent) :
    line.inlines = [.literal line.text, .lineBreak line.newline false] := by
  simp [inlines, Newline.isAbsent, h]

/-- What a definition records of the source. -/
def LinkDefinition.spelled (d : LinkDefinition) : List Char :=
  joined (d.trivia.linesBefore.getD []) ++ (d.chars ++ d.newline.chars)

/-- A block without lines after it records this text of the source. -/
inductive Block.Spells : Block → List Char → Prop
  | definitions {ds : List LinkDefinition} (h : ∀ d ∈ ds, d.trivia.linesAfter = some []) :
      Spells (.linkDefinitionGroup ds .tracked) (ds.flatMap (·.spelled))
  | paragraph (before : Option (List Line)) (lines : List Line) :
      Spells (.paragraph (lines.flatMap Line.inlines) (Builder.tracked before))
        (joined (before.getD []) ++ joined lines)
  | thematicBreak (before : Option (List Line)) (line : Line) :
      Spells (.thematicBreak line.text line.newline (Builder.tracked before))
        (joined (before.getD []) ++ line.chars)
  | heading (before : Option (List Line)) (level : Nat) (text : String) (newline : Newline) :
      Spells (.heading level [.literal text] newline (Builder.tracked before))
        (joined (before.getD []) ++ (headingLine level text newline).chars)

/-- Blocks, the last of them first, record this text of the source. -/
inductive Spelling : List Block → List Char → Prop
  | nil : Spelling [] []
  | cons {reversed : List Block} {block : Block} {text added : List Char}
      (h : Spelling reversed text) (hblock : block.Spells added) :
      Spelling (block :: reversed) (text ++ added)

end MarkdownSpans
