import MarkdownSpans.Proofs.Tree.InlineRun
import MarkdownSpans.Proofs.Tree.Layout

/-!
# Building plain sources

The blocks that are built from the events of a plain source spell the source: what each of them
records, its blank lines before, its content and its terminators, is the text from the end of the
block before it on. Between two blocks nothing is open; the definitions and the blank lines there are
taken up when the next block begins or the source ends.

In the lemmas the lines of a source are cut in the same way throughout: `a` are the lines up to the
end of the last block, `pending` the segments behind them that wait for the next block. Of these the
definitions are read up to the lines `m`, and the blank lines `g` are left over.
-/

namespace MarkdownSpans

open Line (Chained joined size)
open Segment (linesOf eventsFrom definitionsFrom Waiting)

/-- The line breaks keep the texts of the lines of a paragraph apart. -/
theorem joinLiterals_lines {init : List Line} (h : ∀ line ∈ init, line.newline ≠ .absent)
    (text : String) :
    joinLiterals (init.flatMap Line.inlines ++ [.literal text]) =
      init.flatMap Line.inlines ++ [.literal text] := by
  induction init with
  | nil => rfl
  | cons line rest ih =>
    obtain ⟨hline, hrest⟩ := List.forall_mem_cons.1 h
    rw [List.flatMap_cons, Line.inlines_of_ne_absent hline]
    show prependInline (.literal line.text) (prependInline (.lineBreak line.newline false)
      (joinLiterals (rest.flatMap Line.inlines ++ [.literal text]))) = _
    rw [ih hrest]
    rfl

namespace Builder

@[simp] theorem getD_recorded (lines : List Line) : (recorded lines).getD [] = lines := by
  cases lines <;> rfl

/-! ### Between blocks -/

variable {all : List Line} {whole : Nat → Bool}

/-- What is read of the range of a definition, with the lines before it. -/
def readLine (g : List Line) (line : Line) : LinkDefinition :=
  .read (String.ofList line.text.toList) line.newline (recorded g)

theorem spelled_readLine (g : List Line) {line : Line} (h : ClosedDefinition line.text.toList) :
    (readLine g line).spelled = joined (g ++ [line]) := by
  rw [readLine, LinkDefinition.spelled, LinkDefinition.chars_read h]
  simp [LinkDefinition.read, Line.chars]

theorem linesAfter_readLine (g : List Line) (line : Line) :
    (readLine g line).trivia.linesAfter = some [] := by
  simp [readLine, LinkDefinition.read]

variable (whole) in
/-- The next definition is read if it starts before the limit. -/
theorem takeDefinitions_definition (h : Chained all) {a g b : List Line} {line : Line}
    (hall : all = a ++ (g ++ (line :: b))) (hline : ClosedDefinition line.text.toList)
    {limit : Option Nat} (hlimit : limit.all (size (a ++ g) < ·) = true)
    (later : List ByteRange) :
    takeDefinitions (joined all) false limit
        ((Segment.definition line).range whole (size (a ++ g)) :: later) (size a) =
      (takeDefinitions (joined all) false limit later (size (a ++ g ++ [line]))).map
        fun (definitions, ranges, cursor) => (readLine g line :: definitions, ranges, cursor) := by
  have hall' : all = (a ++ g) ++ ((Segment.definition line).lines ++ b) := by simpa using hall
  have gap : gapFrom? (joined all) false (size a) (size (a ++ g)) = some g := by
    subst hall
    exact gapFrom?_joined h
  have lineStart := Segment.lineStart?_segment hall' h
  have blockEnd := Segment.blockEnd?_range hall' h (s := .definition line) hline whole
  have raw := Segment.slice_body hall'
  rw [takeDefinitions, Segment.start_range, if_pos hlimit]
  simp only [Option.bind_eq_bind, Option.bind_some, lineStart, gap, blockEnd, raw]
  rw [Option.map_eq_bind, Segment.lines_definition]
  rfl

variable (whole) in
/-- Definitions between two blocks are read one after another, each with the lines before it. -/
theorem takeDefinitions_segments (h : Chained all) {limit : Option Nat} {later : List ByteRange}
    (hlater : ∀ cursor, takeDefinitions (joined all) false limit later cursor =
      some ([], later, cursor))
    {pending : List Segment} (hpending : Waiting pending)
    {a g b : List Line} (hall : all = a ++ (g ++ (linesOf pending ++ b)))
    (hlimit : ∀ n < size (a ++ (g ++ linesOf pending)), limit.all (n < ·) = true) :
    ∃ (ds : List LinkDefinition) (m g' : List Line),
      takeDefinitions (joined all) false limit
        (definitionsFrom whole (size (a ++ g)) pending ++ later)
        (size a) = some (ds, later, size m) ∧
      m ++ g' = a ++ (g ++ linesOf pending) ∧
      joined m = joined a ++ ds.flatMap (·.spelled) ∧
      ∀ d ∈ ds, d.trivia.linesAfter = some [] := by
  induction pending generalizing a g with
  | nil =>
    have nothing : ∀ d ∈ ([] : List LinkDefinition), d.trivia.linesAfter = some [] := nofun
    exact ⟨[], a, g, hlater _, by simp, by simp, nothing⟩
  | cons s rest ih =>
    obtain ⟨⟨hloose, hplain⟩, hrest⟩ := List.forall_mem_cons.1 hpending
    have start : size (a ++ g) + s.width = size (a ++ (g ++ s.lines)) := by
      simp [Segment.width, Nat.add_assoc]
    cases s with
    | blank line =>
      have cut : all = a ++ ((g ++ [line]) ++ (linesOf rest ++ b)) := by
        simpa [linesOf] using hall
      obtain ⟨ds, m, g', htake, hm, hspelled, hafter⟩ :=
        ih hrest cut (by simpa [linesOf, Nat.add_assoc] using hlimit)
      refine ⟨ds, m, g', ?_, by simp [hm, linesOf], hspelled, hafter⟩
      rw [Segment.definitionsFrom_cons, start, ← htake]
      rfl
    | definition line =>
      have cut : all = (a ++ g ++ [line]) ++ ([] ++ (linesOf rest ++ b)) := by
        simpa [linesOf] using hall
      obtain ⟨ds, m, g', htake, hm, hspelled, hafter⟩ :=
        ih hrest cut (by simpa [linesOf, Nat.add_assoc] using hlimit)
      have before : limit.all (size (a ++ g) < ·) = true := by
        refine hlimit _ ?_
        have pos : 0 < size [line] := byteLength_pos (by
          obtain ⟨label, tail, htext, -⟩ := hplain
          simp [Line.chars, htext])
        simp only [linesOf, List.flatMap_cons, Segment.lines_definition, Line.size_append]
        omega
      have taken := takeDefinitions_definition whole h (by simpa using cut) hplain before
        (definitionsFrom whole (size (a ++ g ++ [line])) rest ++ later)
      rw [List.append_nil] at htake
      refine ⟨readLine g line :: ds, m, g', ?_, by simp [hm, linesOf], ?_, ?_⟩
      · rw [Segment.definitionsFrom_cons, start, Segment.definitions, Segment.lines_definition,
          List.append_assoc, List.singleton_append, ← List.append_assoc a, taken, htake]
        rfl
      · rw [hspelled, List.flatMap_cons, spelled_readLine g hplain]
        simp
      · exact List.forall_mem_cons.2 ⟨linesAfter_readLine g line, hafter⟩
    | paragraph _ _ | thematicBreak _ | heading _ _ _ => cases hloose

/-- Between two blocks no container and no leaf is open. -/
def between (source : List Char) (options : BuildOptions) (blocks : List Block)
    (definitions : List ByteRange) (cursor : Nat) : Builder :=
  { start source definitions options with
    containers := [{ kind := .document, reversed := blocks }], cursor }

/-- In a block a leaf is open. -/
def within (source : List Char) (options : BuildOptions) (blocks : List Block)
    (definitions : List ByteRange) (leaf : Leaf) (cursor : Nat) : Builder :=
  { between source options blocks definitions cursor with leaf := some leaf }

variable {options : BuildOptions} {blocks : List Block}

theorem flushDefinitions_of_take {source : List Char} {limit : Option Nat}
    {ranges later : List ByteRange} {ds : List LinkDefinition} {cursor cursor' : Nat}
    (h : takeDefinitions source false limit ranges cursor = some (ds, later, cursor')) :
    (between source options blocks ranges cursor).flushDefinitions limit =
      some (between source options
        (if ds.isEmpty then blocks else .linkDefinitionGroup ds .tracked :: blocks) later
        cursor') := by
  show (takeDefinitions source false limit ranges cursor).bind _ = _
  rw [h]
  cases ds <;> rfl

variable (whole options) in
/-- The definitions between two blocks become a group, if there are any. -/
theorem flushDefinitions_between (h : Chained all) (limit : Option Nat) {later : List ByteRange}
    (hlater : ∀ cursor, takeDefinitions (joined all) false limit later cursor =
      some ([], later, cursor))
    {pending : List Segment} (hpending : Waiting pending)
    {a b : List Line} (hall : all = a ++ (linesOf pending ++ b))
    (hlimit : ∀ n < size (a ++ linesOf pending), limit.all (n < ·) = true)
    (hblocks : Spelling blocks (joined a)) :
    ∃ (blocks' : List Block) (m g : List Line),
      (between (joined all) options blocks
          (definitionsFrom whole (size a) pending ++ later)
          (size a)).flushDefinitions limit =
        some (between (joined all) options blocks' later (size m)) ∧
      m ++ g = a ++ linesOf pending ∧ Spelling blocks' (joined m) := by
  obtain ⟨ds, m, g, htake, hm, hspelled, hafter⟩ :=
    takeDefinitions_segments whole (g := []) h hlater hpending hall hlimit
  rw [List.append_nil] at htake
  refine ⟨_, m, g, flushDefinitions_of_take htake, hm, ?_⟩
  rw [hspelled]
  cases ds with
  | nil => simpa using hblocks
  | cons d rest => exact hblocks.cons (.definitions hafter)

theorem takeDefinitions_nil {source : List Char} {nested : Bool} {limit : Option Nat}
    (cursor : Nat) :
    takeDefinitions source nested limit [] cursor = some ([], [], cursor) := rfl

theorem takeDefinitions_of_le {source : List Char} {nested : Bool} {limit : Nat}
    {later : List ByteRange} (h : ∀ range ∈ later, limit ≤ range.start) (cursor : Nat) :
    takeDefinitions source nested (some limit) later cursor = some ([], later, cursor) := by
  cases later with
  | nil => rfl
  | cons range rest =>
    have late := h range (.head _)
    rw [takeDefinitions, if_neg (by simpa using late)]

variable (whole options) in
/-- A block begins behind the definitions before it, with the blank lines behind the last of
them. -/
theorem beginBlock_between (h : Chained all) {later : List ByteRange} {pending : List Segment}
    (hpending : Waiting pending) {a b : List Line}
    (hall : all = a ++ (linesOf pending ++ b)) (hb : b ≠ [])
    (hlater : ∀ range ∈ later, size (a ++ linesOf pending) ≤ range.start)
    (hblocks : Spelling blocks (joined a)) :
    ∃ (blocks' : List Block) (m g : List Line),
      (between (joined all) options blocks
          (definitionsFrom whole (size a) pending ++ later)
          (size a)).beginBlock (size (a ++ linesOf pending)) =
        some (recorded g,
          between (joined all) options blocks' later (size (a ++ linesOf pending))) ∧
      m ++ g = a ++ linesOf pending ∧ Spelling blocks' (joined m) := by
  obtain ⟨blocks', m, g, hflush, hm, hspelling⟩ :=
    flushDefinitions_between whole options h (some (size (a ++ linesOf pending)))
      (takeDefinitions_of_le hlater) hpending hall (by simp) hblocks
  have lineStart : lineStart? (joined all) (size (a ++ linesOf pending)) =
      some (size (a ++ linesOf pending)) := by
    rw [hall, ← List.append_assoc] at h ⊢
    exact lineStart?_joined h hb
  have gap : gapFrom? (joined all) false (size m) (size (a ++ linesOf pending)) = some g := by
    rw [hall, ← List.append_assoc, ← hm, List.append_assoc] at h ⊢
    exact gapFrom?_joined h
  have cursor : max (size m) (size (a ++ linesOf pending)) = size (a ++ linesOf pending) := by
    rw [← hm, Line.size_append]
    omega
  refine ⟨blocks', m, g, ?_, hm, hspelling⟩
  show ((between _ _ _ _ _).flushDefinitions _).bind _ = _
  rw [hflush, Option.bind_some]
  show (lineStart? (joined all) _).bind _ = _
  rw [lineStart, Option.bind_some]
  show (gapFrom? (joined all) false (size m) _).bind _ = _
  rw [gap, Option.bind_some]
  exact congrArg (fun n => some (recorded g, between (joined all) options blocks' later n)) cursor

/-! ### Lines of blocks -/

section Lines

variable {source before after : List Char} {later : List ByteRange} {kind : LeafKind}
  {start stop cursor : Nat} {linesBefore : Option (List Line)} {is : List Inline}

theorem addInline_holding {b : Builder}
    (hleaf : b.leaf = some (.holding kind start stop linesBefore is)) (i : Inline)
    (range : ByteRange) :
    b.addInline i range =
      some { b with
        leaf := some (.holding kind start (max stop range.stop) linesBefore (is ++ [i])) } := by
  rw [addInline_of_leaf hleaf, Leaf.pushAll_holding]
  rfl

theorem step_textEvent {b : Builder}
    (hleaf : b.leaf = some (.holding kind start stop linesBefore is)) (hkind : kind.holdsInlines)
    (hemoji : b.options.emoji = false) {text : String} {place : Nat}
    (hsource : b.source = before ++ (text.toList ++ after)) (hplace : place = byteLength before)
    (hstop : stop ≤ place) :
    b.step (Segment.textEvent place text) =
      some { b with leaf := some (.holding kind start (place + byteLength text.toList) linesBefore
        (is ++ [.literal text])) } := by
  have raw : sliceChars b.source place (place + byteLength text.toList) = some text.toList := by
    simpa [hsource, hplace] using sliceChars_append before text.toList after
  have take : takeBytes b.source place = some before := by
    rw [hsource, hplace, takeBytes_append]
  have literal : textInline b.options text text.toList before = .literal text := by
    simp [textInline, hemoji]
  have stop_eq : max stop (place + byteLength text.toList) = place + byteLength text.toList := by
    omega
  have holds : ∀ leaf ∈ b.leaf, leaf.kind.holdsInlines := by
    rw [hleaf]
    rintro _ ⟨⟩
    exact hkind
  show addText text ⟨place, place + byteLength text.toList⟩ b = _
  rw [addText_of_slice holds raw take, literal, addInline_holding hleaf, stop_eq]

theorem step_softBreak {b : Builder}
    (hleaf : b.leaf = some (.holding kind start stop linesBefore is)) {n : Newline}
    (hn : n ≠ .absent) {place place' : Nat} (hsource : b.source = before ++ (n.chars ++ after))
    (hplace : place = byteLength before) (hplace' : place' = byteLength (before ++ n.chars))
    (hstop : stop ≤ place) :
    b.step ⟨.softBreak, ⟨place, place'⟩⟩ =
      some { b with
        leaf := some (.holding kind start place' linesBefore (is ++ [.lineBreak n false])) } := by
  have raw : sliceChars b.source place place' = some n.chars := by
    simpa [hsource, hplace, hplace'] using sliceChars_append before n.chars after
  have newline : breakNewline n.chars = n := by
    cases n with
    | absent => exact absurd rfl hn
    | lf | crlf | cr => decide
  have stop_eq : max stop place' = place' := by
    rw [byteLength_append] at hplace'
    omega
  show (sliceChars b.source place place').bind _ = _
  rw [raw, Option.bind_some, newline, addInline_holding hleaf, stop_eq]

theorem closeParagraph_holding {b : Builder} {implicit : Bool} {stop' : Nat} {last : LineEnd}
    (hleaf : b.leaf = some (.holding (.paragraph implicit) start stop linesBefore is))
    (hstop : stop ≤ stop') (hlast : blockEnd? b.source ⟨start, stop'⟩ = some last) :
    b.closeParagraph stop' =
      some { { b with leaf := none }.pushBlock (.paragraph (joinLiterals is ++
          if last.newline.isAbsent then [] else [Inline.lineBreak last.newline false])
        (tracked linesBefore)) with cursor := last.stop } := by
  unfold closeParagraph
  rw [hleaf]
  show (blockEnd? b.source ⟨start, max stop' stop⟩).bind _ = _
  rw [Nat.max_eq_left hstop, hlast, ← Leaf.inlines_holding]
  rfl

/-- A line of a paragraph with another one after it. -/
theorem run_lineEvent (hkind : kind.holdsInlines) (hemoji : options.emoji = false)
    (h : Chained all) {x b : List Line} {line : Line} (hall : all = x ++ line :: b) (hb : b ≠ []) :
    (within (joined all) options blocks later
        (.holding kind start (size x) linesBefore is) cursor).run
        (Segment.lineEvents (size x) line) =
      some (within (joined all) options blocks later
        (.holding kind start (size (x ++ [line])) linesBefore (is ++ line.inlines)) cursor) := by
  rw [hall] at h
  have newline := h.newline_ne_absent hb
  have source : joined all =
      joined x ++ (line.text.toList ++ (line.newline.chars ++ joined b)) := by
    simp [hall, Line.chars]
  have place : size x = byteLength (joined x) := rfl
  have stop : size x + byteLength line.chars = size (x ++ [line]) := by simp [size]
  rw [Segment.lineEvents, run_cons, step_textEvent rfl hkind hemoji source place (Nat.le_refl _),
    Option.bind_some, run_cons, step_softBreak rfl newline (source.trans (List.append_assoc ..).symm)
      (by simp [size]) (by simp [size, Line.chars]) (Nat.le_refl _), Option.bind_some, run_nil,
    stop, Line.inlines_of_ne_absent newline, List.append_assoc]
  rfl

/-- The lines of a paragraph but the last. -/
theorem run_lineEvents (hkind : kind.holdsInlines) (hemoji : options.emoji = false)
    (h : Chained all) {x init b : List Line} (hall : all = x ++ (init ++ b)) (hb : b ≠ []) :
    (within (joined all) options blocks later
        (.holding kind start (size x) linesBefore is) cursor).run
        (spread (byteLength ·.chars) Segment.lineEvents (size x) init) =
      some (within (joined all) options blocks later
        (.holding kind start (size (x ++ init)) linesBefore (is ++ init.flatMap Line.inlines))
        cursor) := by
  induction init generalizing x is with
  | nil => simp [spread]
  | cons line rest ih =>
    have next : size x + byteLength line.chars = size (x ++ [line]) := by simp [size]
    rw [spread, run_append, run_lineEvent hkind hemoji h hall (by simp [hb]), Option.bind_some,
      next, ih (by simpa using hall)]
    simp

end Lines

/-! ### Blocks -/

section Blocks

variable {b : Builder} {later : List ByteRange} {g x rest : List Line}

/-- The start of a block, behind which the builder is between two blocks. -/
def Begins (b : Builder) (all : List Line) (options : BuildOptions) (blocks : List Block)
    (later : List ByteRange) (g x : List Line) : Prop :=
  b.beginBlock (size x) = some (recorded g, between (joined all) options blocks later (size x))

theorem run_thematicBreak (hbegin : Begins b all options blocks later g x) (h : Chained all)
    {line : Line} (hall : all = x ++ ((Segment.thematicBreak line).lines ++ rest)) :
    b.run ((Segment.thematicBreak line).events whole (size x)) =
      some (between (joined all) options
        (.thematicBreak line.text line.newline (tracked (recorded g)) :: blocks) later
        (size (x ++ [line]))) := by
  have blockEnd := Segment.blockEnd?_range hall h trivial whole
  have content := Segment.slice_body hall
  show ((b.beginBlock (size x)).bind _).bind _ = _
  rw [hbegin]
  show ((blockEnd? (joined all) _).bind _).bind _ = _
  rw [blockEnd]
  show ((sliceChars (joined all) (size x) _).bind _).bind _ = _
  rw [content]
  have text : String.ofList (Segment.thematicBreak line).body = line.text := String.ofList_toList
  show some (between (joined all) options
    (.thematicBreak (String.ofList (Segment.thematicBreak line).body) _ _ :: blocks) later _) = _
  rw [text]
  rfl

theorem run_heading (hbegin : Begins b all options blocks later g x) (h : Chained all)
    (hemoji : options.emoji = false) {level : Nat} {text : String} {newline : Newline}
    (hall : all = x ++ ((Segment.heading level text newline).lines ++ rest)) :
    b.run ((Segment.heading level text newline).events whole (size x)) =
      some (between (joined all) options
        (.heading level [.literal text] newline (tracked (recorded g)) :: blocks) later
        (size (x ++ [headingLine level text newline]))) := by
  have blockEnd := Segment.blockEnd?_range hall h trivial whole
  have source : joined all = (joined x ++ (List.replicate level '#' ++ [' '])) ++
      (text.toList ++ (newline.chars ++ joined rest)) := by
    simp [hall, Segment.lines, Segment.init, Segment.last, headingLine, Line.chars]
  have place : size x + level + 1 =
      byteLength (joined x ++ (List.replicate level '#' ++ [' '])) := by
    rw [byteLength_append, byteLength_append, byteLength_replicate level rfl]
    rfl
  have entered : b.step ⟨.enter (.heading level),
      (Segment.heading level text newline).range whole (size x)⟩ =
      some (within (joined all) options blocks later
        (.holding (.heading level) (size x) (size x) (recorded g) []) (size x)) := by
    show (b.beginBlock (size x)).bind _ = _
    rw [hbegin]
    rfl
  rw [Segment.events, run_cons, entered, Option.bind_some, run_cons,
    step_textEvent rfl rfl hemoji source place (by omega), Option.bind_some]
  show ((blockEnd? (joined all) _).bind _).bind _ = _
  rw [blockEnd]
  rfl

theorem run_paragraph (hbegin : Begins b all options blocks later g x) (h : Chained all)
    (hemoji : options.emoji = false) {init : List Line} {last : Line} (hlast : last.text ≠ "")
    (hall : all = x ++ ((Segment.paragraph init last).lines ++ rest)) :
    b.run ((Segment.paragraph init last).events whole (size x)) =
      some (between (joined all) options
        (.paragraph ((init ++ [last]).flatMap Line.inlines) (tracked (recorded g)) :: blocks) later
        (size (x ++ (init ++ [last])))) := by
  have blockEnd := Segment.blockEnd?_range hall h hlast whole
  have entered : b.step ⟨.enter .paragraph,
      (Segment.paragraph init last).range whole (size x)⟩ =
      some (within (joined all) options blocks later
        (.holding (.paragraph false) (size x) (size x) (recorded g) []) (size x)) := by
    show (b.beginBlock (size x)).bind _ = _
    rw [hbegin]
    rfl
  have source : joined all =
      joined (x ++ init) ++ (last.text.toList ++ (last.newline.chars ++ joined rest)) := by
    simp [hall, Segment.lines, Segment.init, Segment.last, Line.chars]
  have place : size x + size init = byteLength (joined (x ++ init)) := by simp [size]
  have cut : all = x ++ (init ++ last :: rest) := by simpa using hall
  rw [Segment.events, run_cons, entered, Option.bind_some, run_append,
    run_lineEvents rfl hemoji h cut (by simp),
    Option.bind_some, run_cons, step_textEvent rfl rfl hemoji source place (by simp),
    Option.bind_some]
  have reach : size x + size init + byteLength last.text.toList ≤
      ((Segment.paragraph init last).range whole (size x)).stop := by
    simp [Segment.range, Segment.body, Segment.init, Segment.last, size]
    omega
  have chained : Chained (init ++ last :: rest) := by
    rw [cut] at h
    exact h.right
  show ((within (joined all) options blocks later _ (size x)).closeParagraph
    ((Segment.paragraph init last).range whole (size x)).stop).bind _ = _
  rw [closeParagraph_holding rfl reach blockEnd, List.nil_append,
    joinLiterals_lines (chained.newlines_ne_absent (by simp)), List.append_assoc, List.flatMap_append,
    List.flatMap_singleton]
  rfl

variable (whole) in
/-- A block of a plain source is built from its events. -/
theorem run_segment (hbegin : Begins b all options blocks later g x) (h : Chained all)
    (hemoji : options.emoji = false) {s : Segment} (hs : s.Plain) (hblock : s.isLoose = false)
    (hall : all = x ++ (s.lines ++ rest)) :
    ∃ block : Block, block.Spells (joined g ++ joined s.lines) ∧
      b.run (s.events whole (size x)) =
        some (between (joined all) options (block :: blocks) later (size (x ++ s.lines))) := by
  cases s with
  | blank _ | definition _ => cases hblock
  | paragraph init last =>
    exact ⟨_, by simpa using Block.Spells.paragraph (recorded g) (init ++ [last]),
      run_paragraph hbegin h hemoji hs hall⟩
  | thematicBreak line =>
    exact ⟨_, by simpa using Block.Spells.thematicBreak (recorded g) line,
      run_thematicBreak hbegin h hall⟩
  | heading level text newline =>
    exact ⟨_, by simpa using Block.Spells.heading (recorded g) level text newline,
      run_heading hbegin h hemoji hall⟩

end Blocks

/-! ### Whole sources -/

/-- The document of some blocks, the last of them first, and the lines behind the last of them. -/
def documentOf (blocks : List Block) (trailing : List Line) : Document :=
  ⟨(if trailing.isEmpty then blocks
    else if blocks.isEmpty then [.emptyBlock { linesAfter := some trailing }]
    else setLinesAfter trailing blocks).reverse⟩

variable (whole options) in
theorem finish_between (h : Chained all) {pending : List Segment}
    (hpending : Waiting pending) {a : List Line}
    (hall : all = a ++ linesOf pending) (hblocks : Spelling blocks (joined a)) :
    ∃ (blocks' : List Block) (m g : List Line),
      (between (joined all) options blocks
          (definitionsFrom whole (size a) pending) (size a)).finish =
        some (documentOf blocks' g) ∧
      m ++ g = all ∧ Spelling blocks' (joined m) := by
  obtain ⟨blocks', m, g, hflush, hm, hspelling⟩ :=
    flushDefinitions_between whole options h none takeDefinitions_nil hpending (b := [])
      (by simpa using hall) (by simp) hblocks
  rw [List.append_nil] at hflush
  have gap : gapFrom? (joined all) false (size m) (byteLength (joined all)) = some g := by
    have cut : all = m ++ (g ++ []) := by rw [List.append_nil, hm, hall]
    have found := gapFrom?_joined (cut ▸ h)
    rwa [← cut, hm, ← hall] at found
  refine ⟨blocks', m, g, ?_, hm.trans hall.symm, hspelling⟩
  show ((between _ _ _ _ _).flushDefinitions none).bind _ = _
  rw [hflush, Option.bind_some]
  show (gapFrom? (joined all) false (size m) (byteLength (joined all))).bind _ = _
  rw [gap, Option.bind_some]
  have openBlocks : (between (joined all) options blocks' [] (size m)).openBlocks = blocks' := by
    simp [openBlocks, between]
  show some (documentOf (between (joined all) options blocks' [] (size m)).openBlocks g) = _
  rw [openBlocks]

variable (whole) in
/-- **The blocks built from a plain source spell it**, up to the lines behind the last of them: the
blocks so far spell the lines up to the end of the last block, before a segment as behind it. -/
theorem run_segments (h : Chained all) (hemoji : options.emoji = false)
    {pending segments : List Segment} (hpending : Waiting pending)
    (hsegments : ∀ s ∈ segments, s.Plain) {a : List Line}
    (hall : all = a ++ (linesOf pending ++ linesOf segments))
    (hblocks : Spelling blocks (joined a)) :
    ∃ (blocks' : List Block) (m g : List Line),
      ((between (joined all) options blocks
        (definitionsFrom whole (size a) (pending ++ segments))
        (size a)).run (eventsFrom whole (size (a ++ linesOf pending))
          segments)).bind finish = some (documentOf blocks' g) ∧
      m ++ g = all ∧ Spelling blocks' (joined m) := by
  induction segments generalizing a pending blocks with
  | nil =>
    have cut : all = a ++ linesOf pending := by simpa [linesOf] using hall
    simpa [eventsFrom, spread] using finish_between whole options h hpending cut hblocks
  | cons s rest ih =>
    obtain ⟨hs, hrest⟩ := List.forall_mem_cons.1 hsegments
    have hall' : all = (a ++ linesOf pending) ++ (s.lines ++ linesOf rest) := by
      simpa [linesOf] using hall
    have next : size (a ++ linesOf pending) + s.width = size (a ++ linesOf pending ++ s.lines) := by
      simp [Segment.width, Nat.add_assoc]
    by_cases hloose : s.isLoose = true
    · -- The segment waits for the next block.
      have found := ih (hpending.concat hloose hs) hrest (by simpa [linesOf] using hall) hblocks
      rw [Segment.eventsFrom_cons, Segment.events_of_isLoose _ _ hloose, List.nil_append, next]
      simpa [linesOf, Nat.add_assoc] using found
    · have hblock : s.isLoose = false := by simpa using hloose
      have definitions : definitionsFrom whole (size a) (pending ++ s :: rest) =
          definitionsFrom whole (size a) pending ++
            definitionsFrom whole (size (a ++ linesOf pending ++ s.lines)) rest := by
        rw [Segment.definitionsFrom_append, Segment.definitionsFrom_cons,
          Segment.definitions_of_block _ _ hblock, List.nil_append, next]
      obtain ⟨blocks₁, m₁, g₁, hbegin, hm₁, hblocks₁⟩ :=
        beginBlock_between whole options h hpending
          (hall'.trans (List.append_assoc ..)) (by simp [Segment.lines])
          (fun range (hrange : range ∈ definitionsFrom whole
            (size (a ++ linesOf pending ++ s.lines)) rest) =>
            Nat.le_trans (by simp) (Segment.le_start_of_mem_definitionsFrom hrange)) hblocks
      obtain ⟨block, hspells, hrun⟩ :=
        run_segment whole hbegin h hemoji hs hblock hall'
      have spelled : Spelling (block :: blocks₁) (joined (a ++ linesOf pending ++ s.lines)) := by
        have := hblocks₁.cons hspells
        rwa [← List.append_assoc, ← Line.joined_append, ← Line.joined_append, hm₁] at this
      have found := ih .nil hrest (by simpa [linesOf] using hall') spelled
      rw [definitions, Segment.eventsFrom_cons, next, run_append, hrun, Option.bind_some]
      simpa using found

end Builder

open Builder in
/-- A document is built from a plain source, and its blocks spell the source, up to the lines behind
the last of them. -/
theorem Document.ofEvents?_segments {source : String} {segments : List Segment}
    (hsource : Line.split source = linesOf segments) (hplain : ∀ s ∈ segments, s.Plain)
    (whole : Nat → Bool) {options : ParseOptions} (hemoji : options.emoji = false)
    (registry : EmojiRegistry) :
    ∃ (blocks : List Block) (m g : List Line),
      Document.ofEvents? source (definitionsFrom whole 0 segments) options
        (eventsFrom whole 0 segments) registry = some (documentOf blocks g) ∧
      source.toList = joined m ++ joined g ∧ Spelling blocks (joined m) := by
  obtain ⟨hchained, hjoined⟩ := Line.chained_split source
  have hemoji : (BuildOptions.mk options registry).emoji = false := hemoji
  obtain ⟨blocks, m, g, hrun, hm, hspelling⟩ :=
    run_segments whole hchained hemoji .nil hplain (a := []) hsource .nil
  refine ⟨blocks, m, g, ?_, by rw [← hjoined, ← hm, Line.joined_append], hspelling⟩
  have started (ranges : List ByteRange) :
      Builder.start source.toList ranges ⟨options, registry⟩ =
        between source.toList ⟨options, registry⟩ [] ranges 0 := rfl
  rw [Document.ofEvents?, started]
  simpa [hjoined] using hrun

end MarkdownSpans
