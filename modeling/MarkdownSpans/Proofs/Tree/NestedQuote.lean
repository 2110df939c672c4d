import MarkdownSpans.Proofs.Tree.LedLines
import MarkdownSpans.Proofs.Tree.Translation

/-!
# Building nested quotes

Each line of a quote in a quote has two markers, each of them perhaps with a space behind it. The
outer quote finds its marker at the start of every line. The inner one looks at the column of its
first marker, which stands where it should only if the outer marker is as wide as that of the first
line (`NestedLine.readInner`): behind a wider one the space belongs to both quotes, behind a
narrower one the inner marker is overlooked.
-/

namespace MarkdownSpans

open Line (Chained joined size)

/-! ### Sources -/

/-- A line of a quote in a quote. -/
structure NestedLine where
  /-- Whether a space follows the outer marker. -/
  outerSpace : Bool
  /-- Whether a space follows the inner marker. -/
  innerSpace : Bool
  text : String
  unbroken : Unbroken text.toList
  ne_empty : text ≠ ""
  /-- The text starts neither with white space nor with a marker. -/
  head : ∀ c ∈ text.toList.head?, isSpace c = false ∧ c ≠ '>'

theorem isSpace_of_isBlank {c : Char} (h : isBlank c = true) : isSpace c = true := by
  rw [isBlank, Bool.or_eq_true, beq_iff_eq, beq_iff_eq] at h
  rcases h with rfl | rfl <;> decide

/-- A marker, perhaps with a space behind it. -/
def quoteMarker (space : Bool) : List Char := if space then ['>', ' '] else ['>']

theorem unbroken_quoteMarker (space : Bool) : Unbroken (quoteMarker space) := by
  cases space <;> decide

namespace NestedLine

/-- What stands before the text of a line. -/
def lead (l : NestedLine) : List Char := quoteMarker l.outerSpace ++ quoteMarker l.innerSpace

/-- The line as it stands in the source. -/
def line (l : NestedLine) : Line := ⟨String.ofList (l.lead ++ l.text.toList), .lf⟩

/-- The line of the paragraph in the quotes. -/
def content (l : NestedLine) : Line := ⟨l.text, .lf⟩

/-- The line behind what both quotes put before it. -/
def led (l : NestedLine) : LedLine := ⟨l.lead, l.text, .lf⟩

variable (l : NestedLine)

theorem toList_line : l.line.text.toList = l.lead ++ l.text.toList := String.toList_ofList

theorem chars_line : l.line.chars = l.lead ++ (l.text.toList ++ ['\n']) := by
  simp [Line.chars, Newline.chars, line]

theorem unbroken_lead : Unbroken l.lead :=
  (unbroken_quoteMarker _).append (unbroken_quoteMarker _)

theorem unbroken_line : Unbroken l.line.text.toList := by
  rw [toList_line]
  exact l.unbroken_lead.append l.unbroken

theorem exists_text : ∃ c rest, l.text.toList = c :: rest ∧ isSpace c = false ∧ c ≠ '>' := by
  cases htext : l.text.toList with
  | nil => exact absurd (String.toList_eq_nil_iff.1 htext) l.ne_empty
  | cons c rest =>
    obtain ⟨hspace, hmarker⟩ := l.head c (by rw [htext]; rfl)
    exact ⟨c, rest, rfl, hspace, hmarker⟩

theorem chained_line (lines : List NestedLine) : Chained (lines.map line) := by
  refine .of_lf fun line hline => ?_
  obtain ⟨l, -, rfl⟩ := List.mem_map.1 hline
  exact ⟨l.unbroken_line, rfl⟩

/-! ### Reading the lines of the quotes -/

/-- What the outer quote records of a line. -/
def readOuter : QuoteLine := { marker := true, spaceAfter := l.outerSpace, newline := .lf }

/-- What the inner quote records of a line, if its first line has a space behind the outer marker or
not. -/
def readInner (wide : Bool) : QuoteLine :=
  match wide, l.outerSpace with
  | true, true | false, false => { marker := true, spaceAfter := l.innerSpace, newline := .lf }
  | false, true => { before := " ", marker := true, spaceAfter := l.innerSpace, newline := .lf }
  | true, false => { newline := .lf }

end NestedLine

namespace QuoteLine

variable (content : List Char) (n : Newline)

theorem read_marker : read ('>' :: content) n =
    { marker := true, spaceAfter := content.head? == some ' ', newline := n } := rfl

theorem read_space_marker : read (' ' :: '>' :: content) n =
    { before := " ", marker := true, spaceAfter := content.head? == some ' ', newline := n } := rfl

/-- A line without marker at its start has nothing of its own before its content. -/
theorem read_of_head {rest more : List Char} {c : Char} (h : rest.dropWhile isBlank = c :: more)
    (hc : c ≠ '>') : read rest n = { newline := n } := by
  unfold read
  split
  · rename_i heq
    exact absurd (List.cons.inj (h.symm.trans heq)).1 hc
  · rfl

end QuoteLine

/-- The line of a quote that is read from a column of a line. -/
def Line.readFrom (column : Nat) (line : Line) : QuoteLine :=
  .read ((dropBytes line.text.toList column).getD (line.text.toList.dropWhile isSpace)) line.newline

theorem Line.readFrom_of_append {column : Nat} {line : Line} {before rest : List Char}
    (htext : line.text.toList = before ++ rest) (hcolumn : byteLength before = column) :
    line.readFrom column = .read rest line.newline := by
  rw [readFrom, htext, ← hcolumn, dropBytes_append, Option.getD_some]

/-- The lines of a quote, from the lines of its source. -/
theorem Builder.quoteLines_joined {lines : List Line} (h : Chained lines) (column : Nat) :
    quoteLines column (joined lines) = lines.map (Line.readFrom column) := by
  conv_rhs => rw [← h.split_joined, Line.split, String.toList_ofList, List.map_map]
  refine List.map_congr_left fun line _ => ?_
  simp [Line.readFrom, Function.comp]

namespace NestedLine

variable (l : NestedLine)

/-- What stands behind the inner marker: its space and the text, which has none of its own. -/
theorem head?_inner (space : Bool) :
    (((if space then [' '] else []) ++ l.text.toList).head? == some ' ') = space := by
  obtain ⟨c, rest, htext, hspace, -⟩ := l.exists_text
  cases space with
  | true => rfl
  | false =>
    have other : c ≠ ' ' := by
      rintro rfl
      exact absurd hspace (by decide)
    simpa [htext] using other

theorem quoteMarker_append (space : Bool) (rest : List Char) :
    quoteMarker space ++ rest = '>' :: ((if space then [' '] else []) ++ rest) := by
  cases space <;> rfl

theorem readFrom_zero : l.line.readFrom 0 = l.readOuter := by
  have read : l.line.readFrom 0 = .read (l.lead ++ l.text.toList) .lf :=
    Line.readFrom_of_append (l.toList_line.trans (List.nil_append _).symm) rfl
  rw [read, lead, readOuter, List.append_assoc]
  cases l.outerSpace with
  | true => rfl
  | false =>
    -- The inner marker follows.
    rw [quoteMarker_append l.innerSpace]
    rfl

theorem readFrom_quoteMarker (wide : Bool) :
    l.line.readFrom (byteLength (quoteMarker wide)) = l.readInner wide := by
  have line : l.line.text.toList = quoteMarker l.outerSpace ++
      ('>' :: ((if l.innerSpace then [' '] else []) ++ l.text.toList)) := by
    rw [toList_line, lead, List.append_assoc, quoteMarker_append l.innerSpace]
  have marked := QuoteLine.read_marker ((if l.innerSpace then [' '] else []) ++ l.text.toList) .lf
  have spaced :=
    QuoteLine.read_space_marker ((if l.innerSpace then [' '] else []) ++ l.text.toList) .lf
  rw [head?_inner] at marked spaced
  unfold readInner
  cases houter : l.outerSpace <;> rw [houter] at line <;> cases wide
  case false.false => exact (Line.readFrom_of_append line rfl).trans marked
  case true.true => exact (Line.readFrom_of_append line rfl).trans marked
  case true.false =>
    have spare : l.line.text.toList = ['>'] ++
        (' ' :: '>' :: ((if l.innerSpace then [' '] else []) ++ l.text.toList)) := line
    exact (Line.readFrom_of_append spare rfl).trans spaced
  case false.true =>
    -- The column lies behind the inner marker, where no other one follows.
    obtain ⟨c, rest, htext, hspace, hmarker⟩ := l.exists_text
    have behind : l.line.text.toList = ['>', '>'] ++
        ((if l.innerSpace then [' '] else []) ++ l.text.toList) := line
    have blank : isBlank c = false := by
      by_contra hblank
      simp [isSpace_of_isBlank (by simpa using hblank)] at hspace
    have unmarked : ((if l.innerSpace then [' '] else []) ++ l.text.toList).dropWhile isBlank =
        c :: rest := by
      have space : isBlank ' ' = true := rfl
      cases l.innerSpace <;> simp [htext, blank, space]
    exact (Line.readFrom_of_append behind rfl).trans
      (QuoteLine.read_of_head .lf unmarked hmarker)

end NestedLine

/-! ### Events -/

/-- The source of a quote in a quote. -/
def nestedSource (lines : List NestedLine) : String :=
  String.ofList (joined (lines.map NestedLine.line))

/-- The first of some lines. -/
def firstLine (init : List NestedLine) (last : NestedLine) : NestedLine := init.head?.getD last

/-- The events of a line with another one after it. -/
def NestedLine.events (start : Nat) (l : NestedLine) : List RangedEvent :=
  [Segment.textEvent (start + byteLength l.lead) l.text,
    ⟨.softBreak, ⟨start + byteLength l.line.text.toList, start + byteLength l.line.chars⟩⟩]

/-- The events of a paragraph in a quote in a quote. Each of them starts behind the markers of the
containers around it in the first line. -/
def nestedEvents (init : List NestedLine) (last : NestedLine) : List RangedEvent :=
  let first := firstLine init last
  let stop := size ((init ++ [last]).map NestedLine.line)
  let outer : ByteRange := ⟨0, stop⟩
  let inner : ByteRange := ⟨byteLength (quoteMarker first.outerSpace), stop⟩
  let paragraph : ByteRange := ⟨byteLength first.lead, stop⟩
  ⟨.enter .blockQuote, outer⟩ :: ⟨.enter .blockQuote, inner⟩ :: ⟨.enter .paragraph, paragraph⟩ ::
    (spread (byteLength ·.line.chars) NestedLine.events 0 init ++
      [Segment.textEvent (size (init.map NestedLine.line) + byteLength last.lead) last.text,
        ⟨.leave .paragraph, paragraph⟩, ⟨.leave .blockQuote, inner⟩, ⟨.leave .blockQuote, outer⟩])

namespace Builder

variable {cs : List Char} {options : BuildOptions} {containers : List Container}

/-! ### Quotes over a whole source -/

/-- A place in the first line. -/
theorem lineStart?_first {before rest : List Char} (hcs : cs = before ++ rest)
    (hbefore : Unbroken before) : lineStart? cs (byteLength before) = some 0 := by
  have start := lineStart?_append (a := []) .nil hbefore rest
  rwa [List.nil_append, List.nil_append, ← hcs] at start

/-- The end of a range that reaches to the end of a source with one terminator there. -/
theorem blockEnd?_whole {whole before rest : List Char} (hcs : cs = whole ++ ['\n'])
    (hwhole : ∀ c ∈ whole.getLast?, isLineEnd c = false) (hcut : cs = before ++ rest)
    (hrest : rest ≠ []) :
    blockEnd? cs ⟨byteLength before, byteLength cs⟩ =
      some ⟨byteLength whole, .lf, byteLength cs⟩ := by
  obtain rfl | ⟨body, c, rfl⟩ := List.eq_nil_or_concat rest
  · exact absurd rfl hrest
  rw [List.concat_eq_append, ← List.append_assoc] at hcut
  obtain ⟨rfl, hc⟩ := List.append_inj' (hcs.symm.trans hcut) rfl
  obtain rfl : '\n' = c := (List.cons.inj hc).1
  have last : ∀ c ∈ body.getLast?, isLineEnd c = false := by
    intro c hlast
    refine hwhole c ?_
    rw [List.getLast?_append, Option.mem_def.1 hlast]
    rfl
  have ending : blockEnd? (before ++ (body ++ (Newline.lf.chars ++ [])))
      ⟨byteLength before, byteLength (before ++ (body ++ ['\n']))⟩ =
      some ⟨byteLength (before ++ body), .lf, byteLength (before ++ (body ++ Newline.lf.chars))⟩ :=
    blockEnd?_append before last ⟨by simp, by simp⟩ (List.append_nil _).symm
  rw [hcs, List.append_assoc]
  exact ending

/-- A quote begins in the first line. -/
theorem step_enterQuote {c : Container} {start : Nat} (hstart : lineStart? cs start = some 0)
    (hroom : containers.length + 1 ≤ options.maxDepth) (stop : Nat) :
    (still cs options (c :: containers) none 0).step ⟨.enter .blockQuote, ⟨start, stop⟩⟩ =
      some (still cs options ({ kind := .quote start } :: c :: containers) none 0) := by
  show (still cs options (c :: containers) none 0).enterQuote ⟨start, stop⟩ = _
  rw [enterQuote, if_pos (fits_still c none 0 hroom),
    beginBlock_of_gap hstart (IsPosition.gapFrom?_of_le (.zero _) (Nat.le_refl _) _)]
  rfl

/-- A quote that began in the first line ends with the source; the lines behind its last block
belong to that block. -/
theorem step_leaveQuote_of_gap {reversed : List Block} {start cursor : Nat} {range : ByteRange}
    {last : LineEnd} {trailing : List Line} (hlast : blockEnd? cs range = some last)
    (hstop : last.stop = byteLength cs) (hcursor : cursor ≤ byteLength cs)
    (hgap : gapFrom? cs (1 < containers.length + 1) cursor (byteLength cs) = some trailing)
    (hstart : lineStart? cs start = some 0) :
    (still cs options ({ kind := .quote start, reversed } :: containers) none
        cursor).step ⟨.leave .blockQuote, range⟩ =
      some (still cs options
        (onTop (.quote (quoteLines start cs)
          (if trailing.isEmpty then reversed else setLinesAfter trailing reversed).reverse
          .tracked) containers) none (byteLength cs)) := by
  show ((blockEnd? cs range).bind _) = _
  rw [hlast, Option.bind_some, hstop]
  show ((gapFrom? cs (1 < containers.length + 1) cursor (byteLength cs)).bind _) = _
  rw [hgap]
  show ((lineStart? cs start).bind _) = _
  rw [hstart]
  show ((sliceChars cs 0 (byteLength cs)).bind _) = _
  rw [sliceChars_whole]
  conv_rhs => rw [← Nat.max_eq_right hcursor]
  cases containers <;> rfl

/-- A quote that began in the first line ends with the source, right behind its last block. -/
theorem step_leaveQuote {reversed : List Block} {start start' : Nat} {last : LineEnd}
    (hlast : blockEnd? cs ⟨start', byteLength cs⟩ = some last) (hstop : last.stop = byteLength cs)
    (hstart : lineStart? cs start = some 0) :
    (still cs options ({ kind := .quote start, reversed } :: containers) none
        (byteLength cs)).step ⟨.leave .blockQuote, ⟨start', byteLength cs⟩⟩ =
      some (still cs options
        (onTop (.quote (quoteLines start cs) reversed.reverse .tracked) containers) none
        (byteLength cs)) :=
  step_leaveQuote_of_gap hlast hstop (Nat.le_refl _)
    (IsPosition.gapFrom?_of_le (.length cs) (Nat.le_refl _) _) hstart

/-- A block in two quotes that all end with the source. The quotes begin in the first line. -/
theorem run_quotedBlock {whole outer rest : List Char} (hwhole : cs = whole ++ ['\n'])
    (hends : ∀ c ∈ whole.getLast?, isLineEnd c = false) (hcut : cs = outer ++ rest)
    (houter : Unbroken outer) (hrest : rest ≠ []) (hroom : 2 ≤ options.maxDepth)
    {content : List RangedEvent} {block : Block}
    (hcontent : ∀ start containers,
      (still cs options ({ kind := .quote start } :: containers) none 0).run content =
      some (still cs options ({ kind := .quote start, reversed := [block] } :: containers) none
        (byteLength cs))) :
    (still cs options [{ kind := .document }] none 0).run
        (⟨.enter .blockQuote, ⟨0, byteLength cs⟩⟩ ::
        ⟨.enter .blockQuote, ⟨byteLength outer, byteLength cs⟩⟩ ::
        (content ++ [⟨.leave .blockQuote, ⟨byteLength outer, byteLength cs⟩⟩,
          ⟨.leave .blockQuote, ⟨0, byteLength cs⟩⟩])) =
      some (still cs options
        [{ kind := .document
           reversed := [.quote (quoteLines 0 cs)
            [.quote (quoteLines (byteLength outer) cs) [block] .tracked] .tracked] }] none
        (byteLength cs)) := by
  -- Where the quotes begin.
  have outerStart : lineStart? cs 0 = some 0 := lineStart?_first (List.nil_append cs).symm .nil
  have innerStart := lineStart?_first hcut houter
  -- They end where the source does.
  have outerEnd : blockEnd? cs ⟨0, byteLength cs⟩ = some ⟨byteLength whole, .lf, byteLength cs⟩ :=
    blockEnd?_whole hwhole hends (List.nil_append cs).symm (by simp [hwhole])
  have innerEnd := blockEnd?_whole hwhole hends hcut hrest
  rw [run_cons, step_enterQuote outerStart (by simp; omega), Option.bind_some, run_cons,
    step_enterQuote innerStart (by simp; omega), Option.bind_some, run_append, hcontent,
    Option.bind_some, run_cons, step_leaveQuote innerEnd rfl innerStart, Option.bind_some,
    run_cons, onTop, step_leaveQuote outerEnd rfl outerStart, Option.bind_some, run_nil]
  rfl

end Builder

namespace NestedLine

variable (init : List NestedLine) (last : NestedLine)

theorem lines_led : (init.map led).map LedLine.line = init.map line := by
  rw [List.map_map]
  rfl

theorem contents_led : (init.map led).map LedLine.content = init.map content := by
  rw [List.map_map]
  rfl

theorem events_led (start : Nat) :
    spread (byteLength ·.line.chars) LedLine.events start (init.map led) =
      spread (byteLength ·.line.chars) events start init :=
  spread_map ..

theorem lead_first : (LedLine.first (init.map led) last.led).lead = (firstLine init last).lead := by
  cases init <;> rfl

/-- The paragraph reaches from the first text to the end of the source. -/
theorem range_led : LedLine.range true 0 (init.map led) last.led =
    ⟨byteLength (firstLine init last).lead, size ((init ++ [last]).map line)⟩ := by
  have stop : size (init.map line) + byteLength last.line.chars =
      size ((init ++ [last]).map line) := by
    simp [size]
  rw [LedLine.range, lead_first, lines_led, Nat.zero_add, Nat.zero_add, ← stop]
  rfl

end NestedLine

/-- Within the quotes stand the events of the paragraph. -/
theorem nestedEvents_eq (init : List NestedLine) (last : NestedLine) :
    let outer : ByteRange := ⟨0, size ((init ++ [last]).map NestedLine.line)⟩
    let inner : ByteRange := ⟨byteLength (quoteMarker (firstLine init last).outerSpace),
      size ((init ++ [last]).map NestedLine.line)⟩
    nestedEvents init last = ⟨.enter .blockQuote, outer⟩ :: ⟨.enter .blockQuote, inner⟩ ::
      (LedLine.paragraphEvents true 0 (init.map NestedLine.led) last.led ++
        [⟨.leave .blockQuote, inner⟩, ⟨.leave .blockQuote, outer⟩]) := by
  rw [LedLine.paragraphEvents, LedLine.listEvents, NestedLine.events_led, NestedLine.lines_led,
    NestedLine.range_led, Nat.zero_add]
  simp [nestedEvents, NestedLine.led]

/-- The document of a paragraph in a quote in a quote, if there is a space behind the first of the
outer markers or not. -/
def nestedDocument (lines : List NestedLine) (wide : Bool) : Document :=
  ⟨[.quote (lines.map (·.readOuter))
    [.quote (lines.map (·.readInner wide))
      [.paragraph ((lines.map NestedLine.content).flatMap Line.inlines) .tracked] .tracked]
    .tracked]⟩

open Builder in
/-- **The document of a quote in a quote.** The outer quote records the markers of all lines; what
the inner one records of a line goes by the column of its marker in the first line. -/
theorem Document.ofEvents?_nestedSource (init : List NestedLine) (last : NestedLine)
    {options : ParseOptions} (hemoji : options.emoji = false) (hroom : 2 ≤ options.maxDepth)
    (registry : EmojiRegistry) :
    Document.ofEvents? (nestedSource (init ++ [last])) [] options (nestedEvents init last)
        registry =
      some (nestedDocument (init ++ [last]) (firstLine init last).outerSpace) := by
  obtain ⟨more, hfirst⟩ : ∃ more, init ++ [last] = firstLine init last :: more := by
    cases init with
    | nil => exact ⟨[], rfl⟩
    | cons l rest => exact ⟨rest ++ [last], rfl⟩
  let first := firstLine init last
  obtain ⟨all, hall⟩ : ∃ all, all = (init ++ [last]).map NestedLine.line := ⟨_, rfl⟩
  have chained : Chained all := hall ▸ NestedLine.chained_line _
  have cut : joined all = quoteMarker first.outerSpace ++ (quoteMarker first.innerSpace ++
      (first.text.toList ++ '\n' :: joined (more.map NestedLine.line))) := by
    simp [hall, hfirst, first, NestedLine.chars_line, NestedLine.lead]
  have whole : joined all =
      (joined (init.map NestedLine.line) ++ last.line.text.toList) ++ ['\n'] := by
    simp [hall, Line.chars, NestedLine.line, Newline.chars]
  have ends : ∀ c ∈ (joined (init.map NestedLine.line) ++ last.line.text.toList).getLast?,
      isLineEnd c = false := by
    obtain ⟨c, rest, htext, -⟩ := last.exists_text
    exact last.unbroken_line.getLast?_append (by simp [last.toList_line, htext]) _
  -- The paragraph takes all lines behind their markers.
  have lines : all = [] ++ ((init.map NestedLine.led).map LedLine.line ++ last.led.line :: []) := by
    rw [NestedLine.lines_led, hall, List.map_append]
    rfl
  have content (start : Nat) (containers : List Container) :
      (still (joined all) ⟨options, registry⟩ ({ kind := .quote start } :: containers) none 0).run
          (LedLine.paragraphEvents true 0 (init.map NestedLine.led) last.led) =
        some (still (joined all) ⟨options, registry⟩
          ({ kind := .quote start, reversed := [.paragraph
            (((init ++ [last]).map NestedLine.content).flatMap Line.inlines) .tracked] } ::
            containers) none (byteLength (joined all))) := by
    have inside : ({ kind := .quote start } : Container).kind ≠ .item := by simp
    have gap : gapFrom? (joined all)
        (1 < (({ kind := .quote start } : Container) :: containers).length) 0 (size []) = some [] :=
      IsPosition.gapFrom?_of_le (.zero _) (Nat.le_refl _) _
    have hemoji : (BuildOptions.mk options registry).emoji = false := hemoji
    have built :=
      run_ledParagraph inside chained lines last.ne_empty hemoji (Nat.le_refl _) gap true
    rw [← lines, NestedLine.contents_led] at built
    rw [List.map_append]
    exact built
  have run := run_quotedBlock whole ends cut (unbroken_quoteMarker _) (by simp) hroom content
  have source : (nestedSource (init ++ [last])).toList = joined all := by
    rw [nestedSource, hall, String.toList_ofList]
  have gap := IsPosition.gapFrom?_of_le (.length (joined all)) (Nat.le_refl _) false
  -- What the quotes record of each line.
  have outer : quoteLines 0 (joined all) = (init ++ [last]).map (·.readOuter) := by
    rw [quoteLines_joined chained, hall, List.map_map]
    exact List.map_congr_left fun l _ => l.readFrom_zero
  have inner : quoteLines (byteLength (quoteMarker first.outerSpace)) (joined all) =
      (init ++ [last]).map (·.readInner first.outerSpace) := by
    rw [quoteLines_joined chained, hall, List.map_map]
    exact List.map_congr_left fun l _ => l.readFrom_quoteMarker first.outerSpace
  subst hall
  rw [nestedEvents_eq]
  refine (ofEvents?_of_run source run gap).trans ?_
  rw [outer, inner, nestedDocument]
  rfl

end MarkdownSpans
