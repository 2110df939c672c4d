import MarkdownSpans.Proofs.Render.Nested
import MarkdownSpans.Proofs.Render.Spelled
import MarkdownSpans.Proofs.Tree.LastBlock

/-!
# The lines behind a document

The standard rule of a block ends with the lines recorded behind it, so those behind the last block
are the last lines of the text (`Pass.exists_text_withLinesAfter`). There is one exception: the rule
of a quote without blocks in it leaves the lines behind it out. Recorded behind the last block are
the lines of the source behind all blocks, and these are what a text ends with, or loses
(`Pass.text_ofEvents?_last`).
-/

namespace MarkdownSpans

open Line (joined)

/-- The lines recorded behind a block as far as its standard rule writes them: not behind a quote
without blocks in it. -/
def Block.replayed (lines : List Line) (b : Block) : List Line :=
  if b.isBareQuote then [] else lines

@[simp] theorem Block.customName?_withLinesAfter (lines : List Line) (b : Block) :
    (Node.block (b.withLinesAfter lines)).customName? = (Node.block b).customName? := by
  cases b <;> rfl

theorem Block.Within.customName?_eq_none {m n : Nat} {b : Block} (h : b.Within m n) :
    (Node.block b).customName? = none := by
  cases h <;> rfl

theorem Outcome.andThen_assoc (o : Outcome) (f g : Context → Outcome) :
    (o.andThen f).andThen g = o.andThen fun c => (f c).andThen g := by
  obtain ⟨c, error⟩ := o
  cases error <;> rfl

theorem Outcome.andThen_ok (o : Outcome) : o.andThen Context.ok = o := by
  obtain ⟨c, error⟩ := o
  cases error <;> rfl

/-- A change of the context may come before what follows as well as behind it. -/
theorem Outcome.mapContext_andThen {next : Context → Outcome} {f : Context → Context}
    (hnext : ∀ d, next (f d) = (next d).mapContext f) (o : Outcome) :
    (o.andThen next).mapContext f = (o.mapContext f).andThen next := by
  obtain ⟨c, error⟩ := o
  cases error with
  | none => exact (hnext c).symm
  | some error => rfl

/-- Text that is written in the end does not change the spans. -/
theorem Outcome.exists_of_result_andThen {o : Outcome} {f : Buffer → Buffer} {text : List Char}
    {r : RichText} (h : (o.andThen fun d => (d.mapBuffer f).ok).result = .ok r)
    (hf : o.context.buffer.Gains (f o.context.buffer) text) :
    ∃ before, o.result = .ok { r with text := before } ∧
      r.text = before ++ String.ofList text := by
  obtain ⟨c, error⟩ := o
  cases error with
  | some error => cases h
  | none =>
    change Except.map _ c.spans.finish = _ at h
    show ∃ before, Except.map _ c.spans.finish = _ ∧ _
    cases hspans : c.spans.finish with
    | error error =>
      rw [hspans] at h
      cases h
    | ok spans =>
      rw [hspans] at h
      cases h
      refine ⟨c.buffer.text, ?_, hf.text⟩
      show Except.ok _ = Except.ok (RichText.mk _ _ (f c.buffer).unit)
      rw [hf.unit]

namespace Program

/-! ### Programs that go on at their end -/

section GoesOn

variable {pass : Pass} {renderNode : Node → Context → Outcome} {next : Context → Outcome}
  {p q : Program}

/-- The first program does what the second does and, without an error, goes on in this way. -/
def GoesOn (pass : Pass) (renderNode : Node → Context → Outcome) (next : Context → Outcome)
    (p q : Program) : Prop :=
  ∀ c, p.run pass renderNode c = (q.run pass renderNode c).andThen next

namespace GoesOn

theorem seq (r : Program) (h : GoesOn pass renderNode next p q) :
    GoesOn pass renderNode next (.seq r p) (.seq r q) := by
  intro c
  rw [run, run, Outcome.andThen_assoc]
  exact congrArg _ (funext h)

/-- The last one of programs one after another. -/
theorem all (ps : List Program) (h : GoesOn pass renderNode next p q) :
    GoesOn pass renderNode next (.all (ps ++ [p])) (.all (ps ++ [q])) := by
  induction ps with
  | nil =>
    intro c
    show (p.run pass renderNode c).andThen Context.ok =
      ((q.run pass renderNode c).andThen Context.ok).andThen next
    rw [Outcome.andThen_ok, Outcome.andThen_ok, h c]
  | cons r _ ih => exact .seq r ih

theorem observe {view view' : View → Program}
    (h : ∀ v, GoesOn pass renderNode next (view v) (view' v)) :
    GoesOn pass renderNode next (.observe view) (.observe view') :=
  fun c => h (c.view pass.options) c

/-- The standard rule of a block ends with the lines behind it, unless the block is a quote without
blocks in it. -/
theorem program {b : Block} (hname : (Node.block b).customName? = none)
    (hbare : b.isBareQuote = false) {after after' : Option (List Line)}
    (h : ∀ trivia : Trivia, GoesOn pass renderNode next
      (.linesAfter { trivia with linesAfter := after })
      (.linesAfter { trivia with linesAfter := after' })) :
    GoesOn pass renderNode next (b.withTrivia { b.trivia with linesAfter := after }).program
      (b.withTrivia { b.trivia with linesAfter := after' }).program := by
  cases b with
  | paragraph _ trivia => exact .all [_, _, _] (h trivia)
  | heading _ _ _ trivia => exact .all [_, _, _, _, _] (h trivia)
  | codeBlock _ _ trivia => exact .observe fun _ => .all [_, _, _, _, _, _] (h trivia)
  | list _ _ trivia => exact .all [_, _] (h trivia)
  | quote _ children trivia =>
    cases children with
    | nil => cases hbare
    | cons _ _ => exact .all [_, _, _] (h trivia)
  | thematicBreak _ _ trivia => exact .all [_, _, _] (h trivia)
  | htmlBlock _ trivia => exact .all [_, _] (h trivia)
  | linkDefinition d => exact .all [_, _, _, _, _, _, _, _, _, _, _] (h d.trivia)
  | linkDefinitionGroup _ trivia => exact .seq _ (h trivia)
  | emptyBlock trivia => exact h trivia
  | custom => cases hname

/-- A node is rendered as its standard rule says, whatever its depth. -/
theorem render {levels : Nat} {node node' : Node} (hrules : pass.rules = .standard)
    (hname : node.customName? = none) (hname' : node'.customName? = none)
    (hnext : ∀ d, next d.leaveNode = (next d).mapContext (·.leaveNode))
    (h : ∀ levels, GoesOn pass (pass.render levels) next node.program node'.program) :
    GoesOn pass (pass.render levels) next (.render node) (.render node') := by
  intro c
  show pass.render levels node c = (pass.render levels node' c).andThen _
  have hrule := Pass.find?_of_standard hrules hname
  have hrule' := Pass.find?_of_standard hrules hname'
  rcases pass.stuck_or_shallow levels c with stuck | ⟨k, rfl, shallow⟩
  · rw [Pass.render_of_stuck hrule stuck, Pass.render_of_stuck hrule' stuck]
    rfl
  · rw [Pass.render_standard hrules hname shallow, Pass.render_standard hrules hname' shallow,
      h k, Outcome.mapContext_andThen hnext]

end GoesOn

end GoesOn

/-! ### Programs that write more at their end -/

section Trails

variable {pass : Pass} {renderNode : Node → Context → Outcome} {f : Buffer → Buffer}
  {p q : Program}

/-- The first program does what the second does and, without an error, changes the output in the
end. -/
def Trails (pass : Pass) (renderNode : Node → Context → Outcome) (f : Buffer → Buffer)
    (p q : Program) : Prop :=
  ∀ c, p.run pass renderNode c =
    (q.run pass renderNode c).andThen fun d => (d.mapBuffer f).ok

/-- Recorded lines only change the output. -/
theorem exists_run_lines (pass : Pass) (lines : List Line) : ∃ f : Buffer → Buffer,
    ∀ renderNode c, (Program.lines lines).run pass renderNode c = (c.mapBuffer f).ok := by
  induction lines with
  | nil => exact ⟨id, fun _ _ => rfl⟩
  | cons line rest ih =>
    obtain ⟨f, hf⟩ := ih
    exact ⟨fun b => f ((b.write line.text).writeLine line.newline), fun renderNode _ =>
      hf renderNode _⟩

namespace Trails

theorem seq (r : Program) (h : Trails pass renderNode f p q) :
    Trails pass renderNode f (.seq r p) (.seq r q) :=
  GoesOn.seq r h

/-- The last one of programs one after another. -/
theorem all (ps : List Program) (h : Trails pass renderNode f p q) :
    Trails pass renderNode f (.all (ps ++ [p])) (.all (ps ++ [q])) :=
  GoesOn.all ps h

/-- A program does what it does if the output is left as it is. -/
theorem of_silent (hf : ∀ c : Context, (c.mapBuffer f).ok = c.ok) :
    Trails pass renderNode f p p := by
  intro c
  rw [funext hf]
  exact (Outcome.andThen_ok _).symm

theorem withLast (value : Bool) (h : Trails pass renderNode f p q) :
    Trails pass renderNode f (.withLast value p) (.withLast value q) := by
  intro c
  rw [run, run, h]
  cases herror : (q.run pass renderNode { c with last := value }).error <;>
    simp [Outcome.andThen, Outcome.mapContext, herror, Context.mapBuffer, Context.ok]

/-- The standard rule of a block writes the lines behind it in the end. -/
theorem program {b : Block} {lines : List Line} (hname : (Node.block b).customName? = none)
    (hf : ∀ c, (Program.lines (b.replayed lines)).run pass renderNode c = (c.mapBuffer f).ok) :
    Trails pass renderNode f (b.withLinesAfter lines).program (b.withLinesAfter []).program := by
  rw [Block.replayed] at hf
  cases hbare : b.isBareQuote with
  | false =>
    rw [hbare] at hf
    exact GoesOn.program hname hbare fun _ => hf
  | true =>
    rw [hbare] at hf
    unfold Block.isBareQuote at hbare
    split at hbare
    next recorded children trivia =>
      obtain rfl := List.isEmpty_iff.1 hbare
      exact .of_silent fun c => (hf c).symm
    next => cases hbare

/-- Blocks of which the last one has other trivia. -/
theorem blocks (bs : List Block) {b b' : Block}
    (h : Trails pass renderNode f (.render (.block b)) (.render (.block b'))) :
    Trails pass renderNode f (.blocks (bs ++ [b])) (.blocks (bs ++ [b'])) := by
  induction bs with
  | nil => exact .all [] (h.withLast true)
  | cons first rest ih =>
    have more (b : Block) : (rest ++ [b]).isEmpty = false := by simp
    show Trails pass renderNode f (.seq (.withLast (rest ++ [b]).isEmpty _) _)
      (.seq (.withLast (rest ++ [b']).isEmpty _) _)
    rw [more, more]
    exact .seq _ ih

/-- A node is rendered as its standard rule says. -/
theorem render {levels : Nat} {node node' : Node} (hrules : pass.rules = .standard)
    (hname : node.customName? = none) (hname' : node'.customName? = none)
    (h : ∀ levels, Trails pass (pass.render levels) f node.program node'.program) :
    Trails pass (pass.render levels) f (.render node) (.render node') :=
  GoesOn.render hrules hname hname' (fun _ => rfl) h

end Trails

end Trails

end Program

namespace Pass

/-- What is recorded behind the last block is written behind everything else. -/
theorem outcome_withLinesAfter {pass : Pass} (hrules : pass.rules = .standard) (bs : List Block)
    {b : Block} (hname : (Node.block b).customName? = none) {lines : List Line}
    {f : Buffer → Buffer} (hf : ∀ renderNode c,
      (Program.lines (b.replayed lines)).run pass renderNode c = (c.mapBuffer f).ok) :
    pass.outcome ⟨bs ++ [b.withLinesAfter lines]⟩ =
      (pass.outcome ⟨bs ++ [b.withLinesAfter []]⟩).andThen fun d => (d.mapBuffer f).ok := by
  have name (lines : List Line) : (Node.block (b.withLinesAfter lines)).customName? = none :=
    (b.customName?_withLinesAfter lines).trans hname
  have block (levels : Nat) : Program.Trails pass (pass.render levels) f
      (.render (.block (b.withLinesAfter lines))) (.render (.block (b.withLinesAfter []))) :=
    .render hrules (name lines) (name []) fun levels => .program hname (hf (pass.render levels))
  exact Program.Trails.render hrules rfl rfl (fun levels => .blocks bs (block levels)) _

/-- **The lines recorded behind the last block are the last ones of the text**, unless that is a
quote without blocks in it, which loses them. The spans are those of the document without these
lines. -/
theorem exists_text_withLinesAfter {pass : Pass} {bs : List Block} {b : Block}
    (hrules : pass.rules = .standard) (hname : (Node.block b).customName? = none)
    (lines : List Line) {r : RichText}
    (h : (pass.run ⟨bs ++ [b.withLinesAfter lines]⟩).result = .ok r) :
    ∃ text, (pass.run ⟨bs ++ [b.withLinesAfter []]⟩).result = .ok { r with text } ∧
      r.text = text ++ String.ofList (joined (b.replayed lines)) := by
  obtain ⟨f, hf⟩ := Program.exists_run_lines pass (b.replayed lines)
  have outcome := outcome_withLinesAfter hrules bs hname hf
  have passage := pass.passage_outcome ⟨bs ++ [b.withLinesAfter []]⟩
  have bare := passage.continues.indents_eq_nil rfl
  have typed : Program.Types pass 0 (.lines (b.replayed lines)) (joined (b.replayed lines)) :=
    .lines _
  obtain ⟨buffer, hrun, gains⟩ :=
    typed 0 _ (Nat.le_refl 0) (by rw [passage.depth]; exact Nat.zero_le _) bare
  rw [hf] at hrun
  obtain rfl := congrArg (·.context.buffer) hrun
  have result : (pass.outcome ⟨bs ++ [b.withLinesAfter lines]⟩).result = .ok r := h
  rw [outcome] at result
  exact Outcome.exists_of_result_andThen result gains

/-- **The lines behind all blocks are the last ones of the text.** Let a source have the lines that
its events lie in and some more, and let the last events be those of a paragraph, a heading, a
thematic break or a quote. Then a document is built that has the further lines recorded behind its
last block, and if it is rendered with the standard rules, its text ends with just these lines; only
if the last block is a quote without blocks in it, they are left out. If the last events are regular
and end right before the further lines, then the last block is the one built of them and no other
lines are recorded behind it; so it is no quote without blocks in it, unless the last events are
those of a quote without a block in it. -/
theorem text_ofEvents?_last {pass : Pass} (hrules : pass.rules = .standard) {source : String}
    {body after : List Line} {definitions : List ByteRange} (options : ParseOptions)
    (registry : EmojiRegistry) {earlier : EventForest} {last : TopBlock} {range : ByteRange}
    (hsource : Line.split source = body ++ after) (hafter : after ≠ [])
    (hpaired : earlier.Paired) (hlast : last.content.Paired)
    (hevents : ∀ e ∈ earlier.events ++ (last.forest range).events,
      e.range.Fits source.toList ∧ e.range.Inside (Line.size body))
    (hdefinitions : ∀ r ∈ definitions, r.Fits source.toList ∧ r.Inside (Line.size body)) :
    ∃ (blocks : List Block) (block : Block) (lines : List Line),
      Document.ofEvents? source definitions options
          (earlier.events ++ (last.forest range).events) registry =
        some ⟨blocks ++ [block.withLinesAfter (lines ++ after)]⟩ ∧
      (last.Regular options.maxDepth → range.Reaches source.toList (Line.size body) →
        (∀ r ∈ definitions, r.start < last.definitionsEnd range) →
          lines = [] ∧ last.Builds options.maxDepth block) ∧
      (2 * options.maxDepth + 3 ≤ pass.options.maxDepth →
        ∃ r, (pass.run ⟨blocks ++ [block.withLinesAfter (lines ++ after)]⟩).result = .ok r) ∧
      ∀ r, (pass.run ⟨blocks ++ [block.withLinesAfter (lines ++ after)]⟩).result = .ok r →
        ∃ text, (pass.run ⟨blocks ++ [block.withLinesAfter []]⟩).result = .ok { r with text } ∧
          r.text = text ++ String.ofList (joined (block.replayed (lines ++ after))) := by
  obtain ⟨blocks, block, lines, hdocument, hregular⟩ :=
    Document.ofEvents?_last options registry hsource hafter hpaired hlast hevents hdefinitions
  have within := Document.within_of_ofEvents? hdocument
  have name := (within _ (List.mem_append_right _ (.head _))).customName?_eq_none
  rw [Block.customName?_withLinesAfter] at name
  refine ⟨blocks, block, lines, hdocument, hregular, fun hroom => ?_, fun r hr =>
    exists_text_withLinesAfter hrules name _ hr⟩
  exact pass.result_of_within hrules within (by omega)

/-- A definition and a heading before a quote with a paragraph in it, and two blank lines behind,
one of them with a space in it. -/
theorem text_ofEvents?_last_quote :
    ∃ (blocks : List Block) (block : Block) (r : RichText) (text : String),
      Document.ofEvents? "[d]: u\n# h\n> a\n \n\n" [⟨0, 6⟩] {}
          [⟨.enter (.heading 1), ⟨7, 11⟩⟩, ⟨.text "h", ⟨9, 10⟩⟩, ⟨.leave .heading, ⟨7, 11⟩⟩,
            ⟨.enter .blockQuote, ⟨11, 15⟩⟩, ⟨.enter .paragraph, ⟨13, 15⟩⟩, ⟨.text "a", ⟨13, 14⟩⟩,
            ⟨.leave .paragraph, ⟨13, 15⟩⟩, ⟨.leave .blockQuote, ⟨11, 15⟩⟩] =
        some ⟨blocks ++ [block.withLinesAfter [⟨" ", .lf⟩, ⟨"", .lf⟩]]⟩ ∧
      block.kind = .quote ∧
      (Pass.run { rules := .standard, options := { maxDepth := 515 } }
        ⟨blocks ++ [block.withLinesAfter [⟨" ", .lf⟩, ⟨"", .lf⟩]]⟩).result = .ok r ∧
      r.text = text ++ " \n\n" := by
  let paragraph : EventForest := .enclose .paragraph ⟨13, 15⟩ ⟨13, 15⟩
    (.event ⟨.text "a", ⟨13, 14⟩⟩ nofun nofun .nil) .nil
  let heading : EventForest := .enclose (.heading 1) ⟨7, 11⟩ ⟨7, 11⟩
    (.event ⟨.text "h", ⟨9, 10⟩⟩ nofun nofun .nil) .nil
  have hsource : Line.split "[d]: u\n# h\n> a\n \n\n" =
      [⟨"[d]: u", .lf⟩, ⟨"# h", .lf⟩, ⟨"> a", .lf⟩] ++ [⟨" ", .lf⟩, ⟨"", .lf⟩] := by decide
  have hevents : ∀ e ∈ heading.events ++ ((TopBlock.quote paragraph).forest ⟨11, 15⟩).events,
      e.range.Fits "[d]: u\n# h\n> a\n \n\n".toList ∧
        e.range.Inside (Line.size [⟨"[d]: u", .lf⟩, ⟨"# h", .lf⟩, ⟨"> a", .lf⟩]) := by decide
  have hdefinitions : ∀ r ∈ [(⟨0, 6⟩ : ByteRange)], r.Fits "[d]: u\n# h\n> a\n \n\n".toList ∧
      r.Inside (Line.size [⟨"[d]: u", .lf⟩, ⟨"# h", .lf⟩, ⟨"> a", .lf⟩]) := by decide
  have room : 2 * 256 + 3 ≤ (515 : Nat) := by decide
  let pass : Pass := { rules := .standard, options := { maxDepth := 515 } }
  have hrules : pass.rules = .standard := rfl
  have hpaired : heading.Paired := ⟨rfl, trivial, trivial⟩
  have hlast : (TopBlock.quote paragraph).content.Paired := ⟨rfl, trivial, trivial⟩
  obtain ⟨blocks, block, lines, hdocument, hregular, hroom, htext⟩ :=
    text_ofEvents?_last hrules {} knownEmoji hsource nofun hpaired hlast hevents hdefinitions
  obtain ⟨rfl, hbuilds⟩ := hregular (Nat.succ_pos 255) ⟨_, by rfl, rfl⟩ (by decide)
  have filled : block.isBareQuote = false := by
    refine hbuilds.filled fun content hcontent => ?_
    cases hcontent
    exact .inl ⟨rfl, nofun, trivial⟩
  obtain ⟨r, hr⟩ := hroom room
  obtain ⟨text, -, htext⟩ := htext r hr
  rw [Block.replayed, filled] at htext
  exact ⟨blocks, block, r, text, hdocument, hbuilds.kind, hr, htext⟩

/-- The blank line behind a quote without content is left out. -/
theorem text_ne_of_bareQuote :
    ¬∃ document r text,
      Document.ofEvents? ">\n \n" [] {}
          [⟨.enter .blockQuote, ⟨0, 2⟩⟩, ⟨.leave .blockQuote, ⟨0, 2⟩⟩] = some document ∧
        (Pass.run { rules := .standard } document).result = .ok r ∧ r.text = text ++ " \n" := by
  rintro ⟨document, r, text, hdocument, hresult, htext⟩
  have built : Document.ofEvents? ">\n \n" [] {}
      [⟨.enter .blockQuote, ⟨0, 2⟩⟩, ⟨.leave .blockQuote, ⟨0, 2⟩⟩] =
      some ⟨[.quote [⟨"", true, false, "", .lf⟩] [] { linesAfter := some [⟨" ", .lf⟩] }]⟩ := by rfl
  obtain rfl := Option.some.inj (built.symm.trans hdocument)
  have rendered : (Pass.run { rules := .standard }
      ⟨[.quote [⟨"", true, false, "", .lf⟩] [] { linesAfter := some [⟨" ", .lf⟩] }]⟩).result =
      .ok ⟨">\n", [], .utf16⟩ := by decide
  obtain rfl := Except.ok.inj (rendered.symm.trans hresult)
  have reversed := congrArg (·.toList.reverse) htext
  simp at reversed

end Pass

end MarkdownSpans
