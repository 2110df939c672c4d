import MarkdownSpans.Proofs.Render.Dispatch
import MarkdownSpans.Proofs.Tree.LayoutRun

/-!
# Rendering what is spelled

Without open containers the standard rules write just the text that the blocks of a plain source
spell, and open no span (`Program.Types`). So reading a plain source and rendering it gives the
source back (`Pass.run_ofEvents?_segments`).
-/

namespace MarkdownSpans

open Line (joined)

/-! ### Writing without leads -/

namespace Buffer

variable {b b' b'' : Buffer}

/-- The other buffer has just this text more, and no open containers either. -/
structure Gains (b b' : Buffer) (text : List Char) : Prop where
  text : b'.text = b.text ++ String.ofList text
  indents : b'.indents = []
  unit : b'.unit = b.unit

theorem Gains.refl (h : b.indents = []) : b.Gains b [] := ⟨by simp, h, rfl⟩

theorem Gains.trans {text text' : List Char} (h : b.Gains b' text) (h' : b'.Gains b'' text') :
    b.Gains b'' (text ++ text') where
  text := by rw [h'.text, h.text, String.append_assoc, String.ofList_append]
  indents := h'.indents
  unit := h'.unit.trans h.unit

theorem gains_push (h : b.indents = []) (text : String) : b.Gains (b.push text) text.toList := by
  unfold push
  split
  case isTrue hempty =>
    obtain rfl : text = "" := by simpa using hempty
    exact ⟨by simp, h, rfl⟩
  case isFalse => exact ⟨by simp [append], h, rfl⟩

theorem gains_write (h : b.indents = []) (text : String) : b.Gains (b.write text) text.toList := by
  have pushed := gains_push h text
  unfold write
  split
  case isTrue hempty =>
    rw [push, if_pos hempty] at pushed
    exact pushed
  case isFalse => rwa [flushIndent_of_nil h]

theorem gains_writeChar (h : b.indents = []) (c : Char) : b.Gains (b.writeChar c) [c] := by
  rw [writeChar, flushIndent_of_nil h]
  simpa using gains_push h (String.singleton c)

theorem gains_writeLine (h : b.indents = []) (n : Newline) : b.Gains (b.writeLine n) n.chars := by
  have pushed := gains_push h n.text
  rw [Newline.toList_text] at pushed
  rw [writeLine, flushIndent_of_nil h]
  split
  case isTrue habsent =>
    obtain rfl : n = .absent := by simpa [Newline.isAbsent] using habsent
    exact ⟨by simp [Newline.chars], h, rfl⟩
  case isFalse => exact ⟨pushed.text, pushed.indents, pushed.unit⟩

end Buffer

namespace Program

variable {pass : Pass} {n : Nat} {p q : Program} {a b : List Char}

/-- Without open containers and if there is room for `n` nested nodes, the program only writes this
text. -/
def Types (pass : Pass) (n : Nat) (p : Program) (text : List Char) : Prop :=
  ∀ levels (c : Context), n ≤ levels → c.depth + n ≤ pass.options.maxDepth →
    c.buffer.indents = [] →
    ∃ buffer : Buffer, p.run pass (pass.render levels) c = ({ c with buffer } : Context).ok ∧
      c.buffer.Gains buffer text

namespace Types

theorem done : Types pass n .done [] :=
  fun _ c _ _ hindents => ⟨c.buffer, rfl, .refl hindents⟩

theorem write (text : String) : Types pass n (.write text) text.toList :=
  fun _ c _ _ hindents => ⟨c.buffer.write text, rfl, Buffer.gains_write hindents text⟩

theorem writeChar (ch : Char) : Types pass n (.writeChar ch) [ch] :=
  fun _ c _ _ hindents => ⟨c.buffer.writeChar ch, rfl, Buffer.gains_writeChar hindents ch⟩

theorem writeLine (newline : Newline) : Types pass n (.writeLine newline) newline.chars :=
  fun _ c _ _ hindents => ⟨c.buffer.writeLine newline, rfl, Buffer.gains_writeLine hindents newline⟩

theorem seq (hp : Types pass n p a) (hq : Types pass n q b) :
    Types pass n (.seq p q) (a ++ b) := by
  intro levels c hlevels hdepth hindents
  obtain ⟨buffer, hrun, hgains⟩ := hp levels c hlevels hdepth hindents
  obtain ⟨buffer', hrun', hgains'⟩ :=
    hq levels { c with buffer } hlevels hdepth hgains.indents
  refine ⟨buffer', ?_, hgains.trans hgains'⟩
  rw [run, hrun]
  exact hrun'

theorem withLast {value : Bool} (hp : Types pass n p a) : Types pass n (.withLast value p) a := by
  intro levels c hlevels hdepth hindents
  obtain ⟨buffer, hrun, hgains⟩ := hp levels { c with last := value } hlevels hdepth hindents
  exact ⟨buffer, by rw [run, hrun]; rfl, hgains⟩

/-- A node is rendered by its standard rule, one level deeper. -/
theorem render {node : Node} (hrules : pass.rules = .standard) (hname : node.customName? = none)
    (hp : Types pass n node.program a) : Types pass (n + 1) (.render node) a := by
  intro levels c hlevels hdepth hindents
  obtain ⟨k, rfl⟩ := Nat.exists_eq_add_of_le' hlevels
  obtain ⟨buffer, hrun, hgains⟩ :=
    hp (k + n) c.enterNode (by omega) (by show c.depth + 1 + n ≤ _; omega) hindents
  refine ⟨buffer, ?_, hgains⟩
  show pass.render (k + n + 1) node c = _
  rw [Pass.render_standard hrules hname (by omega), hrun]
  rfl

/-- The text may be given in another way. -/
theorem of_eq (hp : Types pass n p a) (h : a = b) : Types pass n p b := h ▸ hp

/-! ### Standard rules -/

theorem lines (ls : List Line) : Types pass n (.lines ls) (joined ls) := by
  induction ls with
  | nil => exact done
  | cons line rest ih =>
    exact ((write line.text).seq ((writeLine line.newline).seq ih)).of_eq (by simp [Line.chars])

theorem blocks {bs : List Block} {texts : List (List Char)}
    (h : List.Forall₂ (fun b text => Types pass n (.render (.block b)) text) bs texts) :
    Types pass n (.blocks bs) texts.flatten := by
  induction h with
  | nil => exact done
  | cons hb _ ih => exact hb.withLast.seq ih

theorem linesBefore (trivia : Trivia) :
    Types pass n (.linesBefore trivia) (joined (trivia.linesBefore.getD [])) := lines _

theorem linesAfter {trivia : Trivia} {ls : List Line} (h : trivia.linesAfter = some ls) :
    Types pass n (.linesAfter trivia) (joined ls) := by
  rw [Program.linesAfter, h]
  exact lines ls

theorem literal (hrules : pass.rules = .standard) (text : String) :
    Types pass 1 (.render (.inline (.literal text))) text.toList :=
  .render hrules rfl (.write text)

theorem lineBreak (hrules : pass.rules = .standard) (newline : Newline) (hard : Bool) :
    Types pass 1 (.render (.inline (.lineBreak newline hard))) newline.chars :=
  .render hrules rfl (.writeLine newline)

/-- The inlines of the lines of a paragraph. -/
theorem inlineLines (hrules : pass.rules = .standard) (ls : List Line) :
    Types pass 1 (.inlines (ls.flatMap Line.inlines)) (joined ls) := by
  induction ls with
  | nil => exact done
  | cons line rest ih =>
    have text := literal hrules line.text
    by_cases h : line.newline = .absent
    · have inlines : line.inlines = [.literal line.text] := by
        simp [Line.inlines, Newline.isAbsent, h]
      rw [List.flatMap_cons, inlines]
      exact (text.seq ih).of_eq (by simp [Line.chars, h, Newline.chars])
    · rw [List.flatMap_cons, Line.inlines_of_ne_absent h]
      exact (text.seq ((lineBreak hrules line.newline false).seq ih)).of_eq (by simp [Line.chars])

theorem address (d : LinkDefinition) :
    Types pass n (.address d) (addressChars d.url.toList d.urlInAngleBrackets) := by
  unfold Program.address addressChars
  split
  · exact (writeChar '<').seq ((write d.url).seq ((writeChar '>').seq done))
  · exact write d.url

theorem title (d : LinkDefinition) :
    Types pass n (.title d) (titleChars (d.title.map String.toList) d.titleDelimiter) := by
  unfold Program.title titleChars
  cases d.title with
  | none => exact done
  | some text => exact (writeChar _).seq ((write text).seq ((writeChar _).seq done))

/-- A definition is written as it is recorded. -/
theorem linkDefinition {d : LinkDefinition} (h : d.trivia.linesAfter = some []) :
    Types pass n (.linkDefinition d) d.spelled := by
  have parts : Types pass n (.linkDefinition d) _ :=
    (linesBefore d.trivia).seq <| (write d.trivia.before).seq <| (writeChar '[').seq <|
      (write d.label).seq <| (write "]:").seq <| (write d.beforeUrl).seq <| (address d).seq <|
      (write d.beforeTitle).seq <| (title d).seq <| (write d.trivia.after).seq <|
      (writeLine d.newline).seq <| (linesAfter h).seq done
  exact parts.of_eq (by simp [LinkDefinition.spelled, LinkDefinition.chars])

end Types

end Program

/-- A block of a plain source is written as it is recorded, with the lines after it. -/
theorem Block.Spells.types {pass : Pass} (hrules : pass.rules = .standard) {b : Block}
    {text : List Char} (h : b.Spells text) (after : List Line) :
    Program.Types pass 2
      (.render (.block (b.withTrivia { b.trivia with linesAfter := some after })))
      (text ++ joined after) := by
  have hname : (Node.block (b.withTrivia { b.trivia with linesAfter := some after })).customName? =
      none := by
    cases h <;> rfl
  refine .render hrules hname ?_
  cases h with
  | @definitions ds hds =>
    have each : ∀ d ∈ ds, Program.Types pass 1 (.render (.block (.linkDefinition d))) d.spelled :=
      fun d hd => .render hrules rfl (.linkDefinition (hds d hd))
    have group := Program.Types.blocks (List.forall₂_map_left_iff.2
      (List.forall₂_map_right_iff.2 (List.forall₂_same.2 each)))
    rw [← List.flatMap_def] at group
    exact group.seq (.linesAfter rfl)
  | paragraph before lines =>
    exact .of_eq (.seq (.linesBefore _) <| .seq (.write "") <| .seq (.inlineLines hrules lines) <|
      .seq (.linesAfter rfl) .done) (by simp [Builder.tracked, trivia])
  | thematicBreak before line =>
    exact .of_eq (.seq (.linesBefore _) <| .seq (.write line.text) <|
      .seq (.writeLine line.newline) <| .seq (.linesAfter rfl) .done)
      (by simp [Builder.tracked, trivia, Line.chars])
  | heading before level text newline =>
    exact .of_eq (.seq (.linesBefore _) <| .seq (.write _) <| .seq (.writeChar ' ') <|
      .seq (.seq (.literal hrules text) .done) <| .seq (.writeLine newline) <|
      .seq (.linesAfter rfl) .done) (by simp [Builder.tracked, trivia, Line.chars, headingLine])

/-- A block is made with no lines after it. -/
theorem Block.Spells.withTrivia_eq {b : Block} {text : List Char} (h : b.Spells text) :
    b.withTrivia { b.trivia with linesAfter := some [] } = b := by
  cases h <;> rfl

theorem Builder.documentOf_cons {b : Block} {text : List Char} (h : b.Spells text)
    (rest : List Block) (after : List Line) :
    (documentOf (b :: rest) after).blocks =
      rest.reverse ++ [b.withTrivia { b.trivia with linesAfter := some after }] := by
  cases after with
  | nil => simp [documentOf, h.withTrivia_eq]
  | cons line more => simp [documentOf, setLinesAfter]

/-- Blocks that spell a text are written as it. -/
theorem Spelling.exists_texts {pass : Pass} (hrules : pass.rules = .standard) {blocks : List Block}
    {text : List Char} (h : Spelling blocks text) :
    ∃ texts, List.Forall₂ (fun b text => Program.Types pass 2 (.render (.block b)) text)
      blocks.reverse texts ∧ texts.flatten = text := by
  induction h with
  | nil => exact ⟨[], .nil, rfl⟩
  | @cons reversed block text added _ hblock ih =>
    obtain ⟨texts, htexts, rfl⟩ := ih
    have typed := hblock.types hrules []
    rw [hblock.withTrivia_eq, Line.joined_nil, List.append_nil] at typed
    refine ⟨texts ++ [added], ?_, by simp⟩
    rw [List.reverse_cons]
    exact List.rel_append htexts (.cons typed .nil)

/-- Blocks that spell a text are written as it, with the lines behind the last of them. -/
theorem Spelling.types {pass : Pass} (hrules : pass.rules = .standard) {blocks : List Block}
    {text : List Char} (h : Spelling blocks text) (after : List Line) :
    Program.Types pass 2 (.blocks (Builder.documentOf blocks after).blocks)
      (text ++ joined after) := by
  cases h with
  | nil =>
    cases after with
    | nil => exact .done
    | cons line more =>
      have typed : Program.Types pass 2
          (.render (.block (.emptyBlock { linesAfter := some (line :: more) })))
          (joined (line :: more)) := by
        have trailing : Program.Types pass 1
            (.linesAfter { linesAfter := some (line :: more) }) (joined (line :: more)) :=
          .linesAfter rfl
        exact .render hrules rfl trailing
      exact .of_eq (.seq typed.withLast .done) (by simp)
  | cons hrest hblock =>
    obtain ⟨texts, htexts, rfl⟩ := hrest.exists_texts hrules
    rw [Builder.documentOf_cons hblock]
    exact (Program.Types.blocks (List.rel_append htexts
      (.cons (hblock.types hrules after) .nil))).of_eq (by simp)

namespace Pass

/-- **A plain source is rendered as it is.** -/
theorem run_ofEvents?_segments {source : String} {segments : List Segment}
    (hsource : Line.split source = Segment.linesOf segments) (hplain : ∀ s ∈ segments, s.Plain)
    (whole : Nat → Bool) {options : ParseOptions} (hemoji : options.emoji = false)
    (registry : EmojiRegistry) {pass : Pass} (hrules : pass.rules = .standard)
    (hdepth : 3 ≤ pass.options.maxDepth) :
    ∃ document,
      Document.ofEvents? source (Segment.definitionsFrom whole 0 segments) options
        (Segment.eventsFrom whole 0 segments) registry = some document ∧
      (pass.run document).result = .ok ⟨source, [], pass.options.unit⟩ := by
  obtain ⟨blocks, m, g, hdocument, hjoined, hspelling⟩ :=
    Document.ofEvents?_segments hsource hplain whole hemoji registry
  refine ⟨_, hdocument, ?_⟩
  have typed : Program.Types pass 3
      (.render (.document (Builder.documentOf blocks g))) (joined m ++ joined g) :=
    .render hrules rfl (hspelling.types hrules g)
  obtain ⟨buffer, hrun, hgains⟩ :=
    typed pass.options.maxDepth (.start pass.options) hdepth
      (by simpa [Context.start] using hdepth) rfl
  have text : buffer.text = source := by
    rw [hgains.text, ← String.toList_inj]
    simpa [Context.start, Buffer.empty] using hjoined.symm
  show (pass.render pass.options.maxDepth _ _).result = _
  rw [← text, ← show buffer.unit = pass.options.unit from hgains.unit]
  exact congrArg Outcome.result hrun

/-- A heading, a definition between blank lines, a paragraph and a thematic break, with lines that
end in every way. -/
def mixedSegments : List Segment :=
  [.heading 2 "T" .crlf, .blank ⟨" ", .lf⟩, .definition ⟨"[a]: <b> \"c\"", .cr⟩, .blank ⟨"", .crlf⟩,
    .paragraph [⟨"p", .cr⟩] ⟨"q", .lf⟩, .thematicBreak ⟨"---", .absent⟩]

theorem closedDefinition_titled : ClosedDefinition "[a]: <b> \"c\"".toList := by
  refine ⟨['a'], " <b> \"c\"".toList, rfl, by simp [Escaped], ⟨?_, ?_⟩⟩
  · intro inner h
    obtain rfl : inner = "b> \"c\"".toList := (List.cons.inj h).2.symm
    decide
  · intro opener inner closer h hcloser
    obtain ⟨rfl, rfl⟩ : '"' = opener ∧ "c\"".toList = inner := List.cons.inj h
    obtain rfl : '"' = closer := Option.some.inj hcloser
    exact ⟨['c'], [], rfl, by simp [Escaped]⟩

/-- A source with all kinds of segments, the ranges of which reach over terminators at odd places
only. -/
theorem run_ofEvents?_segments_mixed :
    let source := "## T\r\n \n[a]: <b> \"c\"\r\r\np\rq\n---"
    let whole : Nat → Bool := fun start => start % 2 == 1
    ∃ document,
      Document.ofEvents? source (Segment.definitionsFrom whole 0 mixedSegments) { emoji := false }
        (Segment.eventsFrom whole 0 mixedSegments) = some document ∧
      (Pass.run { rules := .standard } document).result = .ok ⟨source, [], .utf16⟩ := by
  intro source whole
  refine run_ofEvents?_segments (by decide) ?_ whole rfl knownEmoji rfl (by decide)
  simp only [mixedSegments, List.forall_mem_cons]
  exact ⟨trivial, trivial, closedDefinition_titled, trivial, show "q" ≠ "" by decide, trivial,
    nofun⟩

end Pass

end MarkdownSpans
