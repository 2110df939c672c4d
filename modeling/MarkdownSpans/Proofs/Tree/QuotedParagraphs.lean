import MarkdownSpans.Proofs.Tree.NestedQuote

/-!
# Building a quote of paragraphs

The lines of a quote have a marker each, but for lazy lines, which go on with a paragraph without
one. Before the paragraphs and behind the last of them there may be lines with nothing but a marker.
The quote records what stands before the text of each line, a paragraph records the terminators of
the lines without text before it, and the last paragraph those of the lines without text behind it
(`Document.ofEvents?_quotedSource`).
-/

namespace MarkdownSpans

open Line (Chained joined size)

/-! ### Sources -/

/-- A line of a quote. -/
structure QuotedLine where
  /-- Whether a space follows the marker; a lazy line has no marker. -/
  marker : Option Bool
  text : String
  newline : Newline
  unbroken : Unbroken text.toList
  /-- The text starts neither with white space nor with a marker. -/
  head : ∀ c ∈ text.toList.head?, isSpace c = false ∧ c ≠ '>'
  /-- A line without text has a marker at least. -/
  marked : text = "" → marker ≠ none
  ended : newline ≠ .absent

namespace QuotedLine

/-- What stands before the text of a line. -/
def lead (l : QuotedLine) : List Char :=
  match l.marker with
  | none => []
  | some space => quoteMarker space

/-- The line behind what the quote puts before it. -/
def led (l : QuotedLine) : LedLine := ⟨l.lead, l.text, l.newline⟩

/-- The line as it stands in the source. -/
def line (l : QuotedLine) : Line := l.led.line

/-- The line without what the quote puts before it. -/
def content (l : QuotedLine) : Line := l.led.content

/-- What the quote records of the line. -/
def read (l : QuotedLine) : QuoteLine where
  marker := l.marker.isSome
  spaceAfter := l.marker == some true
  newline := l.newline

variable (l : QuotedLine)

theorem toList_line : l.line.text.toList = l.lead ++ l.text.toList := l.led.toList_line

theorem unbroken_line : Unbroken l.line.text.toList := by
  rw [toList_line]
  refine .append ?_ l.unbroken
  unfold lead
  split
  · exact .nil
  · exact unbroken_quoteMarker _

theorem line_ne_empty : l.line.text ≠ "" := by
  intro hempty
  have chars := l.toList_line
  rw [hempty, String.toList_empty] at chars
  obtain ⟨hlead, htext⟩ := List.append_eq_nil_iff.1 chars.symm
  have marker := l.marked (String.toList_eq_nil_iff.1 htext)
  unfold lead at hlead
  split at hlead
  · exact marker ‹_›
  · rename_i space _
    cases space <;> cases hlead

theorem chained_line (lines : List QuotedLine) : Chained (lines.map line) := by
  refine .of_ne_empty fun line hline => ?_
  obtain ⟨l, -, rfl⟩ := List.mem_map.1 hline
  exact ⟨l.unbroken_line, l.line_ne_empty, l.ended⟩

theorem content_of_empty {l : QuotedLine} (h : l.text = "") : l.content = .blank l.newline := by
  rw [content, LedLine.content, led, h]
  rfl

/-- The text of a line does not start with what belongs to its marker. -/
theorem head?_text : (l.text.toList.head? == some ' ') = false := by
  cases htext : l.text.toList with
  | nil => rfl
  | cons c rest =>
    have other : c ≠ ' ' := by
      rintro rfl
      exact absurd (l.head ' ' (by rw [htext]; rfl)).1 (by decide)
    simpa using other

/-- **The quote records what stands before the text of a line.** -/
theorem readFrom_zero : l.line.readFrom 0 = l.read := by
  have read : l.line.readFrom 0 = .read (l.lead ++ l.text.toList) l.newline :=
    Line.readFrom_of_append (l.toList_line.trans (List.nil_append _).symm) rfl
  rw [read, lead, QuotedLine.read]
  cases hmarker : l.marker with
  | some space =>
    cases space with
    | true => rfl
    | false =>
      have unmarked := QuoteLine.read_marker l.text.toList l.newline
      rw [l.head?_text] at unmarked
      exact unmarked
  | none =>
    -- A lazy line starts with its text.
    cases htext : l.text.toList with
    | nil => exact absurd hmarker (l.marked (String.toList_eq_nil_iff.1 htext))
    | cons c rest =>
      obtain ⟨hspace, hc⟩ := l.head c (by rw [htext]; rfl)
      have blank : isBlank c = false := by
        by_contra hblank
        simp [isSpace_of_isBlank (by simpa using hblank)] at hspace
      have start : (c :: rest).dropWhile isBlank = c :: rest := by simp [blank]
      exact QuoteLine.read_of_head _ start hc

/-- What a line records is put before it again. -/
theorem lead_read : l.read.lead = String.ofList l.lead := by
  rw [read, lead, QuoteLine.lead]
  cases l.marker with
  | none => rfl
  | some space => cases space <;> rfl

end QuotedLine

/-- A paragraph of a quote with the lines before it. -/
structure QuotedParagraph where
  before : List QuotedLine
  /-- The lines of the paragraph but the last. -/
  init : List QuotedLine
  last : QuotedLine
  empty : ∀ l ∈ before, l.text = ""
  filled : ∀ l ∈ init ++ [last], l.text ≠ ""

namespace QuotedParagraph

/-- All lines of the paragraph and before it. -/
def lines (p : QuotedParagraph) : List QuotedLine := p.before ++ (p.init ++ [p.last])

/-- The events of a paragraph; the lines before it start at a place. Its range reaches over the last
terminator if `whole` says so of the place. -/
def events (whole : Nat → Bool) (start : Nat) (p : QuotedParagraph) : List RangedEvent :=
  LedLine.paragraphEvents (whole start) (start + size (p.before.map QuotedLine.line))
    (p.init.map QuotedLine.led) p.last.led

/-- The paragraph that is built, with these lines behind it. -/
def block (after : List QuotedLine) (p : QuotedParagraph) : Block :=
  .paragraph (((p.init ++ [p.last]).map QuotedLine.content).flatMap Line.inlines)
    { linesBefore := Builder.recorded (p.before.map QuotedLine.content)
      linesAfter := some (after.map QuotedLine.content) }

end QuotedParagraph

/-- The lines of a quote with these paragraphs, and with these lines behind the last of them. -/
def quotedLines (paragraphs : List QuotedParagraph) (trailing : List QuotedLine) :
    List QuotedLine :=
  paragraphs.flatMap (·.lines) ++ trailing

/-- The source of such a quote. -/
def quotedSource (paragraphs : List QuotedParagraph) (trailing : List QuotedLine) : String :=
  String.ofList (joined ((quotedLines paragraphs trailing).map QuotedLine.line))

/-- The events of such a quote, which reaches over the whole source. -/
def quotedEvents (whole : Nat → Bool) (paragraphs : List QuotedParagraph)
    (trailing : List QuotedLine) : List RangedEvent :=
  let range : ByteRange := ⟨0, size ((quotedLines paragraphs trailing).map QuotedLine.line)⟩
  ⟨.enter .blockQuote, range⟩ ::
    (spread (fun p => size (p.lines.map QuotedLine.line)) (QuotedParagraph.events whole) 0
      paragraphs ++ [⟨.leave .blockQuote, range⟩])

/-- The document of such a quote. -/
def quotedDocument (init : List QuotedParagraph) (last : QuotedParagraph)
    (trailing : List QuotedLine) : Document :=
  ⟨[.quote ((quotedLines (init ++ [last]) trailing).map QuotedLine.read)
    (init.map (·.block []) ++ [last.block trailing]) .tracked]⟩

/-! ### Building -/

namespace Builder

variable {options : BuildOptions} {all x b : List Line}

/-- In a quote over a whole source no paragraph is open. -/
def inQuote (source : List Char) (options : BuildOptions) (reversed : List Block) (cursor : Nat) :
    Builder :=
  still source options [{ kind := .quote 0, reversed }, { kind := .document }] none cursor

/-- The terminators of the lines between two blocks of a quote are recorded. -/
theorem gapFrom?_empty {lines : List QuotedLine} (hlines : ∀ l ∈ lines, l.text = "")
    (h : Chained all) (hall : all = x ++ (lines.map QuotedLine.line ++ b)) :
    gapFrom? (joined all) true (size x) (size (x ++ lines.map QuotedLine.line)) =
      some (lines.map QuotedLine.content) := by
  subst hall
  rw [gapFrom?_nested h, List.map_map]
  exact congrArg some
    (List.map_congr_left fun l hl => (QuotedLine.content_of_empty (hlines l hl)).symm)

/-- A paragraph of a quote is built from its lines and those before it. -/
theorem run_quotedLines {p : QuotedParagraph} (h : Chained all)
    (hall : all = x ++ (p.lines.map QuotedLine.line ++ b)) (hemoji : options.emoji = false)
    (whole : Nat → Bool) (reversed : List Block) :
    (inQuote (joined all) options reversed (size x)).run (p.events whole (size x)) =
      some (inQuote (joined all) options (p.block [] :: reversed)
        (size (x ++ p.lines.map QuotedLine.line))) := by
  have lines : (p.init.map QuotedLine.led).map LedLine.line = p.init.map QuotedLine.line := by
    rw [List.map_map]
    rfl
  have contents : (p.init.map QuotedLine.led).map LedLine.content =
      p.init.map QuotedLine.content := by
    rw [List.map_map]
    rfl
  have last : p.last.led.line = p.last.line := rfl
  have cut : all = (x ++ p.before.map QuotedLine.line) ++
      ((p.init.map QuotedLine.led).map LedLine.line ++ p.last.led.line :: b) := by
    rw [lines, last, hall]
    simp [QuotedParagraph.lines]
  have gap : gapFrom? (joined all)
      (1 < [({ kind := .quote 0, reversed } : Container), { kind := .document }].length) (size x)
      (size (x ++ p.before.map QuotedLine.line)) = some (p.before.map QuotedLine.content) :=
    gapFrom?_empty p.empty h (cut.trans (List.append_assoc ..))
  have inside : ({ kind := .quote 0, reversed } : Container).kind ≠ .item := by simp
  have reached : size x ≤ size (x ++ p.before.map QuotedLine.line) := by simp
  have built := run_ledParagraph inside h cut (p.filled p.last (by simp)) hemoji reached gap
    (whole (size x))
  rw [lines, contents, last] at built
  have stop : x ++ p.before.map QuotedLine.line ++ (p.init.map QuotedLine.line ++ [p.last.line]) =
      x ++ p.lines.map QuotedLine.line := by
    simp [QuotedParagraph.lines]
  rw [QuotedParagraph.events, ← Line.size_append, inQuote, built, stop, QuotedParagraph.block,
    List.map_append]
  rfl

/-- **The paragraphs of a quote are built one after another.** -/
theorem run_quotedParagraphs {paragraphs : List QuotedParagraph} (h : Chained all)
    (hall : all = x ++ ((paragraphs.flatMap (·.lines)).map QuotedLine.line ++ b))
    (hemoji : options.emoji = false) (whole : Nat → Bool) (reversed : List Block) :
    (inQuote (joined all) options reversed (size x)).run
        (spread (fun p => size (p.lines.map QuotedLine.line)) (QuotedParagraph.events whole)
          (size x) paragraphs) =
      some (inQuote (joined all) options ((paragraphs.map (·.block [])).reverse ++ reversed)
        (size (x ++ (paragraphs.flatMap (·.lines)).map QuotedLine.line))) := by
  induction paragraphs generalizing x reversed with
  | nil => simp [spread]
  | cons p rest ih =>
    have cut : all = x ++ (p.lines.map QuotedLine.line ++
        ((rest.flatMap (·.lines)).map QuotedLine.line ++ b)) := by
      simpa using hall
    have found := ih (x := x ++ p.lines.map QuotedLine.line)
      (cut.trans (List.append_assoc ..).symm) (p.block [] :: reversed)
    rw [spread, run_append, run_quotedLines h cut hemoji, Option.bind_some, ← Line.size_append,
      found]
    simp

/-- The lines behind the last block belong to it. -/
theorem setLinesAfter_block (init : List QuotedParagraph) (last : QuotedParagraph)
    (trailing : List QuotedLine) :
    (if (trailing.map QuotedLine.content).isEmpty then ((init ++ [last]).map (·.block [])).reverse
      else setLinesAfter (trailing.map QuotedLine.content)
        ((init ++ [last]).map (·.block [])).reverse).reverse =
      init.map (·.block []) ++ [last.block trailing] := by
  rw [List.map_append, List.map_singleton, List.reverse_append, List.reverse_singleton,
    List.singleton_append]
  cases trailing with
  | nil => simp
  | cons l rest =>
    simp only [List.map_cons, List.isEmpty_cons, Bool.false_eq_true, if_false, setLinesAfter,
      List.reverse_cons, List.reverse_reverse]
    rfl

section Sources

variable (init : List QuotedParagraph) (last : QuotedParagraph) {trailing : List QuotedLine}

/-- The quote ends with the source. -/
theorem blockEnd?_quotedLines (hall : all =
    (quotedLines (init ++ [last]) trailing).map QuotedLine.line) :
    ∃ ending, blockEnd? (joined all) ⟨0, size all⟩ = some ending ∧
      ending.stop = byteLength (joined all) := by
  obtain ⟨rest, l, hlast⟩ : ∃ rest l, quotedLines (init ++ [last]) trailing = rest ++ [l] := by
    rcases List.eq_nil_or_concat (quotedLines (init ++ [last]) trailing) with hnil | ⟨rest, l, h⟩
    · simp [quotedLines, QuotedParagraph.lines] at hnil
    · exact ⟨rest, l, by rw [h, List.concat_eq_append]⟩
  have lines : all = rest.map QuotedLine.line ++ [l.line] := by simp [hall, hlast]
  have chained : Chained all := hall ▸ QuotedLine.chained_line _
  have found := blockEnd?_joined (lines ▸ chained) l.line_ne_empty (by simp)
  rw [← lines] at found
  exact ⟨_, found, rfl⟩

/-- The lines behind the last paragraph are found when the quote ends. -/
theorem step_leaveQuoted (htrailing : ∀ l ∈ trailing, l.text = "")
    (hall : all = (quotedLines (init ++ [last]) trailing).map QuotedLine.line) :
    (inQuote (joined all) options ((init ++ [last]).map (·.block [])).reverse
        (size (((init ++ [last]).flatMap (·.lines)).map QuotedLine.line))).step
        ⟨.leave .blockQuote, ⟨0, size all⟩⟩ =
      some (still (joined all) options
        [{ kind := .document, reversed := (quotedDocument init last trailing).blocks }] none
        (byteLength (joined all))) := by
  have chained : Chained all := hall ▸ QuotedLine.chained_line _
  have cut : all = ((init ++ [last]).flatMap (·.lines)).map QuotedLine.line ++
      trailing.map QuotedLine.line := by
    rw [hall, quotedLines, List.map_append]
  have before : size (((init ++ [last]).flatMap (·.lines)).map QuotedLine.line) ≤
      byteLength (joined all) := by
    rw [cut, ← size, Line.size_append]
    exact Nat.le_add_right ..
  have gap : gapFrom? (joined all) (1 < [({ kind := .document } : Container)].length + 1)
      (size (((init ++ [last]).flatMap (·.lines)).map QuotedLine.line)) (byteLength (joined all)) =
      some (trailing.map QuotedLine.content) := by
    have found := gapFrom?_empty (b := []) htrailing chained (by rw [List.append_nil, cut])
    rwa [← cut] at found
  have starts : lineStart? (joined all) 0 = some 0 :=
    lineStart?_first (List.nil_append _).symm .nil
  have recorded : quoteLines 0 (joined all) =
      (quotedLines (init ++ [last]) trailing).map QuotedLine.read := by
    rw [quoteLines_joined chained, hall, List.map_map]
    exact List.map_congr_left fun l _ => l.readFrom_zero
  obtain ⟨ending, hending, hstop⟩ := blockEnd?_quotedLines init last hall
  rw [inQuote, step_leaveQuote_of_gap hending hstop before gap starts, setLinesAfter_block,
    recorded]
  rfl

end Sources

end Builder

open Builder in
/-- **The document of a quote of paragraphs.** The quote records the marker of each line, and the
terminators of the lines without text are kept by the paragraphs around them. -/
theorem Document.ofEvents?_quotedSource (init : List QuotedParagraph) (last : QuotedParagraph)
    {trailing : List QuotedLine} (htrailing : ∀ l ∈ trailing, l.text = "") (whole : Nat → Bool)
    {options : ParseOptions} (hemoji : options.emoji = false) (hroom : 1 ≤ options.maxDepth)
    (registry : EmojiRegistry) :
    Document.ofEvents? (quotedSource (init ++ [last]) trailing) [] options
        (quotedEvents whole (init ++ [last]) trailing) registry =
      some (quotedDocument init last trailing) := by
  obtain ⟨all, hall⟩ :
      ∃ all, all = (quotedLines (init ++ [last]) trailing).map QuotedLine.line := ⟨_, rfl⟩
  have chained : Chained all := hall ▸ QuotedLine.chained_line _
  have source : (quotedSource (init ++ [last]) trailing).toList = joined all := by
    rw [quotedSource, hall, String.toList_ofList]
  have starts : lineStart? (joined all) 0 = some 0 :=
    lineStart?_first (List.nil_append _).symm .nil
  have hemoji : (BuildOptions.mk options registry).emoji = false := hemoji
  have paragraphs := run_quotedParagraphs (x := []) (b := trailing.map QuotedLine.line) chained
    (by rw [hall, quotedLines, List.map_append]; rfl) hemoji whole []
  rw [Line.size_nil, List.append_nil, List.nil_append] at paragraphs
  have run : (still (joined all) ⟨options, registry⟩ [{ kind := .document }] none 0).run
      (quotedEvents whole (init ++ [last]) trailing) =
      some (still (joined all) ⟨options, registry⟩
        [{ kind := .document, reversed := (quotedDocument init last trailing).blocks }] none
        (byteLength (joined all))) := by
    rw [quotedEvents, ← hall, run_cons, step_enterQuote starts (by simpa using hroom),
      Option.bind_some, run_append]
    show ((inQuote (joined all) ⟨options, registry⟩ [] 0).run _).bind _ = _
    rw [paragraphs, Option.bind_some, run_cons, step_leaveQuoted init last htrailing hall]
    rfl
  have gap := IsPosition.gapFrom?_of_le (.length (joined all)) (Nat.le_refl _) false
  exact ofEvents?_of_run source run gap

end MarkdownSpans
