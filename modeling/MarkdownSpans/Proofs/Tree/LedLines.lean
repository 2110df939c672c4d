import MarkdownSpans.Proofs.Tree.BlockRun
import MarkdownSpans.Proofs.Tree.LayoutRun

/-!
# Paragraphs behind leads

Inside containers the lines of a paragraph have leads before them, which are left to the containers.
To the paragraph go the texts behind the leads and the terminators between them, so that it gets the
same inlines as from lines without leads (`Builder.run_ledLines`).
-/

namespace MarkdownSpans

open Line (Chained joined size)

/-- A line of a paragraph with what the containers around it put before its text. -/
structure LedLine where
  lead : List Char
  text : String
  newline : Newline

namespace LedLine

/-- The line as it stands in the source. -/
def line (l : LedLine) : Line := ⟨String.ofList (l.lead ++ l.text.toList), l.newline⟩

/-- The line of the paragraph. -/
def content (l : LedLine) : Line := ⟨l.text, l.newline⟩

/-- The events of a line with another one after it. -/
def events (start : Nat) (l : LedLine) : List RangedEvent :=
  [Segment.textEvent (start + byteLength l.lead) l.text,
    ⟨.softBreak, ⟨start + byteLength l.line.text.toList, start + byteLength l.line.chars⟩⟩]

/-- The events of the lines of a paragraph that starts at a place. -/
def listEvents (start : Nat) (init : List LedLine) (last : LedLine) : List RangedEvent :=
  spread (byteLength ·.line.chars) events start init ++
    [Segment.textEvent (start + size (init.map line) + byteLength last.lead) last.text]

/-- The first of the lines of a paragraph. -/
def first (init : List LedLine) (last : LedLine) : LedLine := init.head?.getD last

/-- The range of a paragraph that starts at a place, from its first text on. It reaches over the
last terminator if `whole` says so. -/
def range (whole : Bool) (start : Nat) (init : List LedLine) (last : LedLine) : ByteRange :=
  ⟨start + byteLength (first init last).lead,
    start + size (init.map line) +
      byteLength (last.line.text.toList ++ if whole then last.newline.chars else [])⟩

/-- The events of a paragraph that starts at a place. -/
def paragraphEvents (whole : Bool) (start : Nat) (init : List LedLine) (last : LedLine) :
    List RangedEvent :=
  ⟨.enter .paragraph, range whole start init last⟩ ::
    (listEvents start init last ++ [⟨.leave .paragraph, range whole start init last⟩])

variable (l : LedLine)

theorem toList_line : l.line.text.toList = l.lead ++ l.text.toList := String.toList_ofList

theorem chars_line : l.line.chars = l.lead ++ (l.text.toList ++ l.newline.chars) := by
  simp [Line.chars, line]

theorem exists_first (init : List LedLine) (last : LedLine) (b : List Line) :
    ∃ more, init.map line ++ last.line :: b = (first init last).line :: more := by
  cases init with
  | nil => exact ⟨b, rfl⟩
  | cons l rest => exact ⟨rest.map line ++ last.line :: b, rfl⟩

/-- From the first text of a paragraph to its last one. -/
theorem exists_body (init : List LedLine) {last : LedLine} (hne : last.text ≠ "")
    (hunbroken : Unbroken last.text.toList) :
    ∃ body, joined (init.map line) ++ last.line.text.toList = (first init last).lead ++ body ∧
      ∀ c ∈ body.getLast?, isLineEnd c = false := by
  have chars : last.text.toList ≠ [] := fun hnil => hne (String.toList_eq_nil_iff.1 hnil)
  cases init with
  | nil => exact ⟨last.text.toList, last.toList_line, hunbroken.getLast?_append chars []⟩
  | cons l rest =>
    refine ⟨l.text.toList ++ l.newline.chars ++ joined (rest.map line) ++ last.lead ++
      last.text.toList, ?_, hunbroken.getLast?_append chars _⟩
    simp [first, l.chars_line, last.toList_line]

end LedLine

namespace Builder

variable {options : BuildOptions} {containers : List Container} {kind : LeafKind}
  {all x b : List Line} {start stop cursor : Nat} {linesBefore : Option (List Line)}
  {is : List Inline}

theorem joined_ledLine {l : LedLine} (hall : all = x ++ l.line :: b) :
    joined all = (joined x ++ l.lead) ++ (l.text.toList ++ (l.newline.chars ++ joined b)) := by
  simp [hall, l.chars_line]

/-- The text of a line goes to the open paragraph. -/
theorem step_ledText {l : LedLine} (hall : all = x ++ l.line :: b) (hkind : kind.holdsInlines)
    (hemoji : options.emoji = false) (hstop : stop ≤ size x + byteLength l.lead) :
    (still (joined all) options containers (some (.holding kind start stop linesBefore is))
        cursor).step (Segment.textEvent (size x + byteLength l.lead) l.text) =
      some (still (joined all) options containers
        (some (.holding kind start (size x + byteLength l.lead + byteLength l.text.toList)
          linesBefore (is ++ [.literal l.text]))) cursor) := by
  have place : size x + byteLength l.lead = byteLength (joined x ++ l.lead) :=
    (byteLength_append ..).symm
  rw [step_textEvent rfl hkind hemoji (joined_ledLine hall) place hstop]
  rfl

/-- A line with another one after it. -/
theorem run_ledLine {l : LedLine} (hall : all = x ++ l.line :: b) (hkind : kind.holdsInlines)
    (hemoji : options.emoji = false) (hnewline : l.newline ≠ .absent)
    (hstop : stop ≤ size x + byteLength l.lead) :
    (still (joined all) options containers (some (.holding kind start stop linesBefore is))
        cursor).run (l.events (size x)) =
      some (still (joined all) options containers
        (some (.holding kind start (size (x ++ [l.line])) linesBefore
          (is ++ l.content.inlines))) cursor) := by
  have source : joined all =
      (joined x ++ l.line.text.toList) ++ (l.newline.chars ++ joined b) := by
    simp [hall, Line.chars, LedLine.line]
  have width : byteLength l.line.text.toList = byteLength l.lead + byteLength l.text.toList := by
    rw [l.toList_line, byteLength_append]
  have place : size x + byteLength l.line.text.toList =
      byteLength (joined x ++ l.line.text.toList) := (byteLength_append ..).symm
  have reached : size x + byteLength l.line.chars =
      byteLength (joined x ++ l.line.text.toList ++ l.newline.chars) := by
    simp [size, Line.chars, LedLine.line]
  have next : size x + byteLength l.line.chars = size (x ++ [l.line]) := by simp [size]
  have inlines : l.content.inlines = [.literal l.text, .lineBreak l.newline false] :=
    Line.inlines_of_ne_absent hnewline
  rw [LedLine.events, run_cons, step_ledText hall hkind hemoji hstop, Option.bind_some, run_cons,
    step_softBreak rfl hnewline source place reached (by omega), Option.bind_some, run_nil, next,
    List.append_assoc, inlines]
  rfl

/-- **All lines go to the paragraph**, the last of them without its line break. -/
theorem run_ledLines {init : List LedLine} {last : LedLine}
    (hall : all = x ++ (init.map LedLine.line ++ last.line :: b)) (hkind : kind.holdsInlines)
    (hemoji : options.emoji = false) (hnewline : ∀ l ∈ init, l.newline ≠ .absent)
    (hstop : stop ≤ size x + byteLength (LedLine.first init last).lead) :
    (still (joined all) options containers (some (.holding kind start stop linesBefore is))
        cursor).run (LedLine.listEvents (size x) init last) =
      some (still (joined all) options containers
        (some (.holding kind start
          (size (x ++ init.map LedLine.line) + byteLength last.lead + byteLength last.text.toList)
          linesBefore
          (is ++ ((init.map LedLine.content).flatMap Line.inlines ++ [.literal last.text]))))
        cursor) := by
  induction init generalizing x stop is with
  | nil =>
    rw [LedLine.listEvents, spread, List.nil_append, run_cons, List.map_nil, Line.size_nil,
      Nat.add_zero, List.append_nil, step_ledText hall hkind hemoji hstop]
    rfl
  | cons l rest ih =>
    obtain ⟨hl, hrest⟩ := List.forall_mem_cons.1 hnewline
    have next : size x + byteLength l.line.chars = size (x ++ [l.line]) := by simp [size]
    have place : size x + size ((l :: rest).map LedLine.line) =
        size (x ++ [l.line]) + size (rest.map LedLine.line) := by
      simp [size, Nat.add_assoc]
    have found := @ih (x ++ [l.line]) (size (x ++ [l.line])) (is ++ l.content.inlines)
      (by simpa using hall) hrest (Nat.le_add_right ..)
    rw [LedLine.listEvents, spread, List.append_assoc, run_append,
      run_ledLine hall hkind hemoji hl hstop, Option.bind_some, next, place]
    rw [LedLine.listEvents] at found
    simpa using found

section Paragraphs

variable {init : List LedLine} {last : LedLine}

theorem unbroken_ledLine {l : LedLine} (h : Chained all) (hall : all = x ++ l.line :: b) :
    Unbroken l.lead ∧ Unbroken l.text.toList := by
  have unbroken := (hall ▸ h).unbroken
  rw [l.toList_line] at unbroken
  exact ⟨fun c hc => unbroken c (List.mem_append_left _ hc),
    fun c hc => unbroken c (List.mem_append_right _ hc)⟩

/-- A paragraph starts in its first line. -/
theorem lineStart?_ledLines (h : Chained all)
    (hall : all = x ++ (init.map LedLine.line ++ last.line :: b)) :
    lineStart? (joined all) (size x + byteLength (LedLine.first init last).lead) =
      some (size x) := by
  obtain ⟨more, hmore⟩ := LedLine.exists_first init last b
  rw [hmore] at hall
  have start := lineStart?_append ((hall ▸ h).endsLine (by simp)) (unbroken_ledLine h hall).1
    ((LedLine.first init last).text.toList ++
      ((LedLine.first init last).newline.chars ++ joined more))
  rwa [← List.append_assoc, ← joined_ledLine hall, byteLength_append] at start

/-- A paragraph ends with its last line. -/
theorem blockEnd?_ledLines (h : Chained all)
    (hall : all = x ++ (init.map LedLine.line ++ last.line :: b)) (hne : last.text ≠ "")
    (whole : Bool) :
    ∃ content, blockEnd? (joined all) (LedLine.range whole (size x) init last) =
      some ⟨content, last.newline, size (x ++ (init.map LedLine.line ++ [last.line]))⟩ := by
  have cut : all = (x ++ init.map LedLine.line) ++ last.line :: b := by simp [hall]
  obtain ⟨body, hbody, hlast⟩ := LedLine.exists_body init hne (unbroken_ledLine h cut).2
  obtain ⟨left, hleft⟩ : ∃ left, last.newline.chars =
      (if whole then last.newline.chars else []) ++ left := by
    cases whole with
    | true => exact ⟨[], by simp⟩
    | false => exact ⟨_, rfl⟩
  have lines (tail : List Char) :
      joined x ++ (joined (init.map LedLine.line) ++ (last.line.text.toList ++ tail)) =
        joined x ++ (LedLine.first init last).lead ++ (body ++ tail) := by
    rw [← List.append_assoc (joined (init.map LedLine.line)), hbody]
    simp
  have source : joined all = joined x ++ (LedLine.first init last).lead ++
      (body ++ (last.newline.chars ++ joined b)) := by
    rw [← lines, hall]
    simp [Line.chars, LedLine.line]
  have range : LedLine.range whole (size x) init last =
      ⟨byteLength (joined x ++ (LedLine.first init last).lead),
        byteLength (joined x ++ (LedLine.first init last).lead ++
          (body ++ if whole then last.newline.chars else []))⟩ := by
    rw [← lines]
    simp only [LedLine.range, byteLength_append, size, Nat.add_assoc]
  have stop : byteLength (joined x ++ (LedLine.first init last).lead ++
      (body ++ last.newline.chars)) = size (x ++ (init.map LedLine.line ++ [last.line])) := by
    rw [← lines]
    simp [size, Line.chars, LedLine.line]
  have found := blockEnd?_append (joined x ++ (LedLine.first init last).lead) hlast
    (cut ▸ h).ends hleft
  rw [← source, ← range] at found
  exact ⟨_, found.trans (by rw [stop])⟩

/-- A paragraph begins with the lines before it. -/
theorem step_enterParagraph_of_gap {source : List Char} {c : Container} (hkind : c.kind ≠ .item)
    {lineStart : Nat} {lines : List Line} (hstart : lineStart? source start = some lineStart)
    (hgap : gapFrom? source (1 < (c :: containers).length) cursor lineStart = some lines)
    (stop : Nat) :
    (still source options (c :: containers) none cursor).step ⟨.enter .paragraph, ⟨start, stop⟩⟩ =
      some (still source options (c :: containers)
        (some (.holding (.paragraph false) start start (recorded lines) []))
        (max cursor lineStart)) := by
  show (still source options (c :: containers) none cursor).enterParagraph ⟨start, stop⟩ = _
  rw [enterParagraph, beginBlock_of_gap hstart hgap]
  show some (((still source options (c :: containers) none
    (max cursor lineStart)).markLoose).openLeaf _ start _) = _
  rw [markLoose_still, loosened_of_ne_item hkind]
  rfl

/-- **A paragraph is built from the lines behind their leads**, with the lines before it. -/
theorem run_ledParagraph {c : Container} (hkind : c.kind ≠ .item) (h : Chained all)
    (hall : all = x ++ (init.map LedLine.line ++ last.line :: b)) (hne : last.text ≠ "")
    (hemoji : options.emoji = false) {lines : List Line} (hcursor : cursor ≤ size x)
    (hgap : gapFrom? (joined all) (1 < (c :: containers).length) cursor (size x) = some lines)
    (whole : Bool) :
    (still (joined all) options (c :: containers) none cursor).run
        (LedLine.paragraphEvents whole (size x) init last) =
      some (still (joined all) options
        (onTop (.paragraph ((init.map LedLine.content ++ [last.content]).flatMap Line.inlines)
          (tracked (recorded lines))) (c :: containers)) none
        (size (x ++ (init.map LedLine.line ++ [last.line])))) := by
  have newlines : ∀ line ∈ init.map LedLine.line, line.newline ≠ .absent :=
    (hall ▸ h).right.newlines_ne_absent (List.cons_ne_nil _ _)
  have inner : ∀ l ∈ init, l.newline ≠ .absent := fun l hl => newlines _ (List.mem_map_of_mem hl)
  have contents : ∀ line ∈ init.map LedLine.content, line.newline ≠ .absent := by
    simpa [LedLine.content] using inner
  obtain ⟨content, hend⟩ := blockEnd?_ledLines h hall hne whole
  let range := LedLine.range whole (size x) init last
  have entered : (still (joined all) options (c :: containers) none cursor).step
      ⟨.enter .paragraph, LedLine.range whole (size x) init last⟩ =
      some (still (joined all) options (c :: containers)
        (some (.holding (.paragraph false) range.start range.start (recorded lines) []))
        (max cursor (size x))) :=
    step_enterParagraph_of_gap hkind (lineStart?_ledLines h hall) hgap range.stop
  have start : range.start ≤ size x + byteLength (LedLine.first init last).lead := Nat.le_refl _
  have reach : size (x ++ init.map LedLine.line) + byteLength last.lead +
      byteLength last.text.toList ≤ range.stop := by
    simp only [range, LedLine.range, last.toList_line, byteLength_append, Line.size_append]
    omega
  let leaf : Leaf := .holding (.paragraph false) range.start
    (size (x ++ init.map LedLine.line) + byteLength last.lead + byteLength last.text.toList)
    (recorded lines) ((init.map LedLine.content).flatMap Line.inlines ++ [.literal last.text])
  have closed := closeParagraph_holding
    (b := still (joined all) options (c :: containers) (some leaf) (size x)) rfl reach hend
  rw [LedLine.paragraphEvents, run_cons, entered, Nat.max_eq_right hcursor, Option.bind_some,
    run_append, run_ledLines hall rfl hemoji inner start, Option.bind_some, List.nil_append]
  show ((still (joined all) options (c :: containers) (some leaf) (size x)).closeParagraph
    range.stop).bind _ = _
  rw [closed, joinLiterals_lines contents, List.append_assoc, List.flatMap_append,
    List.flatMap_singleton]
  rfl

end Paragraphs

end Builder

end MarkdownSpans
