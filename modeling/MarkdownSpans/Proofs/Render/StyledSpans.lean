import MarkdownSpans.Proofs.Document.Marks
import MarkdownSpans.Proofs.Render.Plain
import MarkdownSpans.Proofs.Render.Spans
import MarkdownSpans.Proofs.Render.Spelled

/-!
# The spans of styled nodes

A successful pass with the standard rules opens one span for each styled node, in document order.
`Program.Draws` says so of a program and the nodes it has rendered, `Program.Writes` says what a
program writes without open containers, which is what the span around it covers. Together they give
the spans of a document (`Pass.spans_standard`).
-/

namespace MarkdownSpans

/-! ### Runs without an error -/

namespace Outcome

variable {o : Outcome} {next : Context → Outcome}

theorem andThen_of_ok (h : o.error = none) : o.andThen next = next o.context := by
  rw [andThen, h]

/-- What follows an outcome only succeeds if the outcome is a success. -/
theorem of_error_andThen (h : (o.andThen next).error = none) :
    o.error = none ∧ (next o.context).error = none := by
  cases ho : o.error with
  | none => exact ⟨rfl, by rwa [andThen_of_ok ho] at h⟩
  | some error =>
    rw [andThen, ho] at h
    cases ho.symm.trans h

end Outcome

namespace Pass

variable {pass : Pass} {levels : Nat} {node : Node} {c : Context}

/-- A successful rendering by standard rules is that of a node of an extension, which is left out,
or a run of the program of the node one level deeper. -/
theorem render_success (hrules : pass.rules = .standard)
    (h : (pass.render levels node c).error = none) :
    (node.customName? ≠ none ∧ pass.render levels node c = c.ok ∧
        pass.extents levels node c = []) ∨
      ∃ k, levels = k + 1 ∧ (node.program.run pass (pass.render k) c.enterNode).error = none ∧
        pass.render levels node c =
          (node.program.run pass (pass.render k) c.enterNode).mapContext (·.leaveNode) ∧
        pass.extents levels node c =
          node.program.extents pass (pass.render k) (pass.extents k) c.enterNode := by
  cases hrule : pass.rules.find? node with
  | none =>
    refine .inl ⟨fun hname => ?_, ?_, extents_of_none hrule⟩
    · rw [hrules, RuleSet.find?_standard hname] at hrule
      cases hrule
    · rw [render_of_none hrule] at h ⊢
      unfold unknown at h ⊢
      split at h
      · rfl
      · cases h
  | some rule =>
    have hprogram : rule node = node.program :=
      RuleSet.followsStandard_standard node rule (hrules ▸ hrule)
    rcases pass.stuck_or_shallow levels c with stuck | ⟨k, rfl, shallow⟩
    · rw [render_of_stuck hrule stuck] at h
      cases h
    · have hrender : pass.render (k + 1) node c = _ := render_succ hrule shallow
      have hextents : pass.extents (k + 1) node c = _ := extents_succ hrule shallow
      rw [hprogram] at hrender hextents
      exact .inr ⟨k, rfl, by rwa [hrender] at h, hrender, hextents⟩

end Pass

namespace Program

variable {pass : Pass} {levels : Nat} {p q : Program}

/-! ### What is written without open containers -/

/-- If the program runs without an error and no container is open, it appends this text. -/
def Writes (pass : Pass) (levels : Nat) (p : Program) (text : String) : Prop :=
  ∀ c : Context, c.buffer.indents = [] → (p.run pass (pass.render levels) c).error = none →
    (p.run pass (pass.render levels) c).context.buffer.text = c.buffer.text ++ text

/-- A run does not open a container that stays open. -/
theorem indents_run (p : Program) {c : Context} (h : c.buffer.indents = []) :
    (p.run pass (pass.render levels) c).context.buffer.indents = [] :=
  (p.passage_run (pass.passage_render levels) c).continues.indents_eq_nil h

namespace Writes

variable {a b : String}

theorem done : Writes pass levels .done "" := fun _ _ _ => String.append_empty.symm

theorem write (text : String) : Writes pass levels (.write text) text := by
  intro c bare _
  have := (Buffer.gains_write bare text).text
  rwa [String.ofList_toList] at this

theorem writeLine (newline : Newline) : Writes pass levels (.writeLine newline) newline.text := by
  intro c bare _
  have := (Buffer.gains_writeLine bare newline).text
  rwa [← Newline.toList_text, String.ofList_toList] at this

theorem seq (hp : Writes pass levels p a) (hq : Writes pass levels q b) :
    Writes pass levels (.seq p q) (a ++ b) := by
  intro c bare success
  obtain ⟨success_p, success_q⟩ := Outcome.of_error_andThen success
  rw [run, Outcome.andThen_of_ok success_p, hq _ (p.indents_run bare) success_q,
    hp c bare success_p, String.append_assoc]

/-- A span adds no text: without open containers no lead is written before it. -/
theorem span (style : SpanStyle) (hp : Writes pass levels p a) :
    Writes pass levels (.span style p) a := by
  intro c bare success
  have flushed : (c.openSpan style).buffer = c.buffer := Buffer.flushIndent_of_nil bare
  have := hp (c.openSpan style) (by rw [flushed]; exact bare) success
  rwa [flushed] at this

/-- Without an interceptor no tag is handled. -/
theorem intercept {tag : String} {next : Bool → Program} (hinterceptor : pass.interceptor = none)
    (h : Writes pass levels (next false) a) : Writes pass levels (.intercept tag next) a := by
  intro c bare success
  have unhandled : pass.handles c tag = false := by simp [Pass.handles, hinterceptor]
  simp only [run, unhandled] at success ⊢
  exact h (c.offer tag false) bare success

theorem lines (ls : List Line) :
    Writes pass levels (.lines ls) (String.join (ls.map Line.written)) := by
  induction ls with
  | nil => exact done
  | cons line rest ih =>
    have := (write line.text).seq ((writeLine line.newline).seq ih)
    rwa [← String.append_assoc, ← String.join_cons] at this

/-- The texts of inlines, given those of each of them. -/
theorem inlines (h : ∀ i : Inline, Writes pass levels (.render (.inline i)) i.text)
    (is : List Inline) : Writes pass levels (.inlines is) (Inline.listText is) := by
  induction is with
  | nil => exact done
  | cons i rest ih =>
    rw [Inline.listText]
    exact (h i).seq ih

end Writes

/-- The standard rule of an inline writes its text if the rules of those inside it do. -/
theorem Writes.inlineProgram (hinterceptor : pass.interceptor = none)
    (h : ∀ i : Inline, Writes pass levels (.render (.inline i)) i.text) (i : Inline) :
    Writes pass levels i.program i.text := by
  cases i with
  | literal content => exact write content
  | emphasis mark count children =>
    simp only [Inline.program]
    split
    · exact span _ (inlines h children)
    · exact inlines h children
  | codeSpan content => exact span _ (write content)
  | autolink url isEmail => exact span _ (write url)
  | link url title isImage children => exact span _ (inlines h children)
  | lineBreak newline hard => exact writeLine newline
  | htmlInline tag => exact intercept hinterceptor (write tag)
  | htmlEntity spelling decoded => exact write spelling
  | delimiter text children => exact seq (write text) (inlines h children)
  | custom kind content children => exact done

/-- A successful rendering of an inline without open containers writes its text. -/
theorem writes_inline (hrules : pass.rules = .standard) (hinterceptor : pass.interceptor = none)
    (i : Inline) : Writes pass levels (.render (.inline i)) i.text := by
  induction levels using Nat.strongRecOn generalizing i with
  | ind levels ih =>
    intro c bare success
    obtain ⟨hname, hrun, -⟩ | ⟨k, rfl, success, hrun, -⟩ := Pass.render_success hrules success
    -- An inline of an extension is left out.
    · rw [run, hrun, Inline.text_of_custom hname, String.append_empty]
      rfl
    · rw [run, hrun]
      exact Writes.inlineProgram hinterceptor (ih k (Nat.lt_succ_self k)) i c.enterNode bare success

end Program

/-! ### The spans of a run -/

/-- The extent of a span has the style of a mark; what was written meanwhile is the text of the mark
if the output is `bare` of leads and the node of the mark is not held. -/
structure SpanExtent.Shows (bare : Prop) (e : SpanExtent) (m : Mark) : Prop where
  style : e.style = m.style
  text : bare → m.held = false → e.closed.text = e.opened.text ++ m.text

namespace SpanExtent.Shows

variable {bare bare' : Prop} {es : List SpanExtent} {ms : List Mark}

theorem mono (hbare : bare' → bare) (h : List.Forall₂ (Shows bare) es ms) :
    List.Forall₂ (Shows bare') es ms :=
  h.imp fun _ _ shows => ⟨shows.style, fun hb => shows.text (hbare hb)⟩

/-- Of nodes that are held only the styles count. -/
theorem hold (h : List.Forall₂ (Shows bare) es ms) :
    List.Forall₂ (Shows bare') es (ms.map .hold) :=
  List.forall₂_map_right_iff.2 (h.imp fun _ _ shows => ⟨shows.style, nofun⟩)

end SpanExtent.Shows

namespace Program

variable {pass : Pass} {levels : Nat} {p q : Program} {ms ns : List Mark}

/-- If the program runs without an error, the spans it opens are those of the marks, in this
order. -/
def Draws (pass : Pass) (levels : Nat) (p : Program) (ms : List Mark) : Prop :=
  ∀ c : Context, (p.run pass (pass.render levels) c).error = none →
    List.Forall₂ (SpanExtent.Shows (c.buffer.indents = []))
      (p.extents pass (pass.render levels) (pass.extents levels) c) ms

namespace Draws

theorem seq (hp : Draws pass levels p ms) (hq : Draws pass levels q ns) :
    Draws pass levels (.seq p q) (ms ++ ns) := by
  intro c success
  obtain ⟨success_p, success_q⟩ := Outcome.of_error_andThen success
  have second := hq _ success_q
  simp only [extents, success_p]
  exact List.rel_append (hp c success_p) (SpanExtent.Shows.mono p.indents_run second)

theorem withCompact {value : Bool} (hp : Draws pass levels p ms) :
    Draws pass levels (.withCompact value p) ms :=
  fun c success => hp { c with compact := value } success

theorem withLast {value : Bool} (hp : Draws pass levels p ms) :
    Draws pass levels (.withLast value p) ms :=
  fun c success => hp { c with last := value } success

theorem observe {next : View → Program} (h : ∀ view, Draws pass levels (next view) ms) :
    Draws pass levels (.observe next) ms :=
  fun c success => h (c.view pass.options) c success

/-- What stands in a container is held. -/
theorem indent {i : Indent} (hp : Draws pass levels p ms) :
    Draws pass levels (.indent i p) (ms.map .hold) :=
  fun c success => SpanExtent.Shows.hold (hp (c.mapBuffer (·.pushIndent i)) success)

/-- A span around a program comes before those in it and covers what the program writes. -/
theorem span {style : SpanStyle} {text : String} (hp : Draws pass levels p ms)
    (htext : Writes pass levels p text) :
    Draws pass levels (.span style p) ({ style, text } :: ms) := by
  intro c success
  have flushed (bare : c.buffer.indents = []) : (c.openSpan style).buffer = c.buffer :=
    Buffer.flushIndent_of_nil bare
  have entered (bare : c.buffer.indents = []) : (c.openSpan style).buffer.indents = [] := by
    rw [flushed bare, bare]
  refine .cons ⟨rfl, fun bare _ => ?_⟩ (SpanExtent.Shows.mono entered (hp _ success))
  exact htext _ (entered bare) success

/-- A program that only writes opens the spans of the nodes it has rendered. -/
theorem of_plain (h : ∀ node : Node, Draws pass levels (.render node) node.marks)
    {nodes : List Node} (renders : p.Renders nodes) (plain : p.Plain) :
    Draws pass levels p (nodes.flatMap Node.marks) := by
  induction renders with
  | done | write | writeChar | writeLine | writeDefaultLine | ensureLine => exact fun _ _ => .nil
  | seq _ _ ihp ihq =>
    rw [List.flatMap_append]
    exact (ihp plain.1).seq (ihq plain.2)
  | span | indent | intercept => exact plain.elim
  | withCompact value _ ih => exact (ih plain).withCompact
  | withLast value _ ih => exact (ih plain).withLast
  | render node =>
    rw [List.flatMap_singleton]
    exact h node
  | observe _ ih => exact observe fun view => ih view (plain view).1

/-! ### Standard rules -/

section Rules

variable (hnode : ∀ node : Node, Draws pass levels (.render node) node.marks)
include hnode

theorem inlines (is : List Inline) : Draws pass levels (.inlines is) (Inline.listMarks is) := by
  rw [← Node.flatMap_inline]
  exact of_plain hnode (.inlines is) (.inlines is)

theorem blocks (bs : List Block) : Draws pass levels (.blocks bs) (Block.listMarks bs) := by
  rw [← Node.flatMap_block]
  exact of_plain hnode (.blocks bs) (.blocks bs)

/-- A program that only writes may stand before another. -/
theorem after_plain (renders : p.Renders []) (plain : p.Plain) (hq : Draws pass levels q ms) :
    Draws pass levels (.seq p q) ms :=
  (of_plain hnode renders plain).seq hq

/-- A program that only writes may stand behind another. -/
theorem before_plain (renders : q.Renders []) (plain : q.Plain) (hp : Draws pass levels p ms) :
    Draws pass levels (.seq p q) ms := by
  have := hp.seq (of_plain hnode renders plain)
  rwa [List.flatMap_nil, List.append_nil] at this

theorem items (style : ListStyle) (index : Nat) (entries : List ListItem) :
    Draws pass levels (.items style index entries) ((Block.itemsMarks entries).map .hold) := by
  induction entries generalizing index with
  | nil => exact fun _ _ => .nil
  | cons item rest ih =>
    obtain ⟨children, trivia⟩ := item
    rw [Block.itemsMarks, List.map_append]
    refine after_plain hnode .ensureLine trivial ?_
    refine after_plain hnode (.marker style index) (.marker style index) ?_
    refine (indent (hnode (.item (.mk children trivia)))).seq ?_
    refine after_plain hnode (.withLast _ (.linesAfter trivia)) (Plain.linesAfter trivia) ?_
    refine after_plain hnode (.separator style _) (.separator style _) ?_
    exact before_plain hnode .done trivial (ih _)

theorem list (style : ListStyle) (entries : List ListItem) (trivia : Trivia) :
    Draws pass levels (.list style entries trivia) ((Block.itemsMarks entries).map .hold) := by
  have body := after_plain hnode (.linesBefore trivia) (.linesBefore trivia)
    (items hnode style (firstIndex style) entries)
  refine after_plain hnode .ensureLine trivial ?_
  exact before_plain hnode (.seq (.linesAfter trivia) .done) ⟨.linesAfter trivia, trivial⟩
    body.withCompact

theorem quoted {leads : List String} (hp : Draws pass levels p ms) :
    Draws pass levels (.quoted leads p) (ms.map .hold) := by
  refine observe fun view => ?_
  split
  · exact indent hp
  · exact after_plain hnode (.write _) trivial (indent hp)

theorem quote (recorded : List QuoteLine) (children : List Block) (trivia : Trivia) :
    Draws pass levels (.quote recorded children trivia) ((Block.listMarks children).map .hold) := by
  refine after_plain hnode (.linesBefore trivia) (.linesBefore trivia) ?_
  refine after_plain hnode (.write _) trivial ?_
  cases children with
  | nil =>
    rw [Block.listMarks]
    have content := of_plain hnode (.terminators recorded) (.terminators recorded)
    exact before_plain hnode (.seq .done .done) ⟨trivial, trivial⟩ (content.quoted hnode)
  | cons b rest =>
    exact before_plain hnode (.seq (.linesAfter trivia) .done) ⟨.linesAfter trivia, trivial⟩
      ((blocks hnode (b :: rest)).quoted hnode)

theorem codeBlock (content : List Line) (fence : Option Fence) (trivia : Trivia) :
    Draws pass levels (.codeBlock content fence trivia)
      (Block.codeBlock content fence trivia).marks := by
  refine observe fun view => ?_
  refine after_plain hnode (.linesBefore trivia) (.linesBefore trivia) ?_
  refine after_plain hnode (.write _) trivial ?_
  refine after_plain hnode (.lines _) (.lines _) ?_
  refine before_plain hnode (.all_silent (.lines _) (.all_silent (.write _)
    (.all_silent (.linesAfter trivia) .all_nil)))
    ⟨.lines _, trivial, .linesAfter trivia, trivial⟩ ?_
  rw [Block.marks]
  exact span (of_plain hnode (.lines content) (.lines content)) (.lines content)

/-- An inline opens the span of its own style and those of the inlines inside it. -/
theorem inlineProgram (hinline : ∀ i : Inline, Writes pass levels (.render (.inline i)) i.text)
    (i : Inline) : Draws pass levels i.program i.marks := by
  cases i with
  | emphasis mark count children =>
    rw [Inline.marks, Inline.ownMarks, Inline.style?_emphasis, Inline.text]
    simp only [Inline.program]
    cases emphasisStyle? mark with
    | some kind => exact span (inlines hnode children) (.inlines hinline children)
    | none => exact inlines hnode children
  | codeSpan content => exact span (of_plain hnode (.write content) trivial) (.write content)
  | autolink url isEmail =>
    cases isEmail <;> exact span (of_plain hnode (.write url) trivial) (.write url)
  | link url title isImage children =>
    exact span (inlines hnode children) (.inlines hinline children)
  | htmlInline tag =>
    intro c success
    show List.Forall₂ _ (Program.extents pass (pass.render levels) (pass.extents levels)
      (if pass.handles c tag then .done else .write tag) (c.offer tag (pass.handles c tag))) []
    split <;> exact .nil
  | delimiter text children =>
    exact after_plain hnode (.write text) trivial (inlines hnode children)
  | literal | lineBreak | htmlEntity | custom => exact fun _ _ => .nil

theorem blockProgram (b : Block) : Draws pass levels b.program b.marks := by
  cases b with
  | paragraph content trivia =>
    refine after_plain hnode (.linesBefore trivia) (.linesBefore trivia) ?_
    refine after_plain hnode (.write _) trivial ?_
    rw [Block.marks]
    exact before_plain hnode (.seq (.linesAfter trivia) .done) ⟨.linesAfter trivia, trivial⟩
      (inlines hnode content)
  | heading level content newline trivia =>
    rw [Block.marks, ← Node.flatMap_inline]
    exact of_plain hnode (.heading level content newline trivia)
      (.heading level content newline trivia)
  | codeBlock content fence trivia => exact codeBlock hnode content fence trivia
  | list style entries trivia =>
    rw [Block.marks]
    exact list hnode style entries trivia
  | quote recorded children trivia =>
    rw [Block.marks]
    exact quote hnode recorded children trivia
  | thematicBreak content newline trivia =>
    exact of_plain hnode (.seq (.linesBefore trivia) (.seq (.write content)
      (.seq (.writeLine newline) (.seq (.linesAfter trivia) .done))))
      ⟨.linesBefore trivia, trivial, trivial, .linesAfter trivia, trivial⟩
  | htmlBlock content trivia =>
    exact of_plain hnode (.seq (.linesBefore trivia) (.seq (.htmlLines content)
      (.seq (.linesAfter trivia) .done)))
      ⟨.linesBefore trivia, .htmlLines content, .linesAfter trivia, trivial⟩
  | linkDefinition d => exact of_plain hnode (.linkDefinition d) (.linkDefinition d)
  | linkDefinitionGroup definitions trivia =>
    rw [Block.marks, ← Block.listMarks_linkDefinitions definitions]
    exact before_plain hnode (.linesAfter trivia) (.linesAfter trivia)
      (blocks hnode (definitions.map .linkDefinition))
  | emptyBlock trivia => exact of_plain hnode (.linesAfter trivia) (.linesAfter trivia)
  | custom => exact fun _ _ => .nil

/-- **The standard rule of a node opens the spans of the styled nodes in it.** -/
theorem program (hinline : ∀ i : Inline, Writes pass levels (.render (.inline i)) i.text)
    (node : Node) : Draws pass levels node.program node.marks := by
  cases node with
  | document d => exact blocks hnode d.blocks
  | block b => exact blockProgram hnode b
  | item i =>
    exact after_plain hnode (.linesBefore i.trivia) (.linesBefore i.trivia)
      (blocks hnode i.children)
  | inline i => exact inlineProgram hnode hinline i

end Rules

end Draws

/-- A successful rendering of a node opens the spans of the styled nodes in it. -/
theorem draws_render (hrules : pass.rules = .standard) (hinterceptor : pass.interceptor = none)
    (node : Node) : Draws pass levels (.render node) node.marks := by
  induction levels using Nat.strongRecOn generalizing node with
  | ind levels ih =>
    intro c success
    obtain ⟨hname, -, hextents⟩ | ⟨k, rfl, success, -, hextents⟩ :=
      Pass.render_success hrules success
    -- A node of an extension is left out.
    · rw [extents, hextents, Node.marks_of_custom hname]
      exact .nil
    · have hnode := ih k (Nat.lt_succ_self k)
      have hinline (i : Inline) : Writes pass k (.render (.inline i)) i.text :=
        writes_inline hrules hinterceptor i
      rw [extents, hextents]
      exact Draws.program hnode hinline node c.enterNode success

end Program

/-- A span that covers an extent has the style of the mark that the extent shows, and covers its
text. -/
theorem RichText.forall₂_of_covers {r : RichText} {spans : List Span} {es : List SpanExtent}
    {ms : List Mark} (covers : List.Forall₂ r.Covers spans es)
    (shows : List.Forall₂ (SpanExtent.Shows True) es ms) :
    List.Forall₂ (fun s m => s.style = m.style ∧ (m.held = false → r.covered? s = some m.text))
      spans ms := by
  induction covers generalizing ms with
  | nil =>
    cases shows
    exact .nil
  | cons cover _ ih =>
    cases shows with
    | cons shown rest =>
      refine .cons ⟨cover.style.trans shown.style, fun hheld => ?_⟩ (ih rest)
      obtain ⟨piece, -, written, -, covered⟩ := cover.covered
      have text := shown.text trivial hheld
      rw [written, String.append_right_inj] at text
      rw [covered, text]

namespace Pass

/-- **The spans of a document are those of its styled nodes.** The spans of a successful pass with
the standard rules and no interceptor have, in their order, the styles of the styled nodes of the
document; the span of a node that lies under no list and no quote covers just the text of the
node. -/
theorem spans_standard {pass : Pass} {document : Document} {r : RichText}
    (hrules : pass.rules = .standard) (hinterceptor : pass.interceptor = none)
    (h : (pass.run document).result = .ok r) :
    List.Forall₂ (fun s m => s.style = m.style ∧ (m.held = false → r.covered? s = some m.text))
      r.spans document.marks := by
  have success : (pass.outcome document).error = none := by
    rw [result_run] at h
    split at h
    · cases h
    · assumption
  have shows : List.Forall₂ (SpanExtent.Shows True) (pass.spanExtents document) document.marks :=
    SpanExtent.Shows.mono (fun _ => rfl)
      (Program.draws_render hrules hinterceptor (.document document) (.start pass.options) success)
  exact RichText.forall₂_of_covers (covers_spanExtents h).2 shows

/-- Emphasis around a part of an extension that is left out, an address of mail, a block of code in
a quote, and one with fences. -/
theorem spans_standard_mixed :
    let pass : Pass :=
      { rules := .standard, options := { unknownNodes := .skip, keepCodeFences := true } }
    let document : Document := ⟨[
      .paragraph [.emphasis '*' 2 [.literal "a", .custom "x" "y" [.codeSpan "z"],
        .lineBreak .lf false, .emphasis '_' 1 [.htmlEntity "&amp;" "&"]], .autolink "b@c" true] {},
      .quote [.marked .lf, .marked .lf] [.codeBlock [⟨"d", .lf⟩, ⟨"e", .absent⟩] none {}] {},
      .codeBlock [⟨"😀", .lf⟩, ⟨"", .crlf⟩]
        (some ⟨" rust ignore", ⟨"~~~ rust ignore", .lf⟩, none⟩) {}]⟩
    let r : RichText := ⟨"a\n&amp;b@c\n> d\n> e\n~~~ rust ignore\n😀\n\r\n",
      [⟨0, 7, { kind := .bold }⟩, ⟨2, 5, { kind := .italic }⟩,
        ⟨7, 3, { kind := .url, url := some "mailto:b@c" }⟩, ⟨13, 5, { kind := .pre }⟩,
        ⟨35, 5, { kind := .pre, language := some "rust" }⟩], .utf16⟩
    (pass.run document).result = .ok r ∧
      document.marks = [⟨{ kind := .bold }, "a\n&amp;", false⟩,
        ⟨{ kind := .italic }, "&amp;", false⟩,
        ⟨{ kind := .url, url := some "mailto:b@c" }, "b@c", false⟩,
        ⟨{ kind := .pre }, "d\ne", true⟩,
        ⟨{ kind := .pre, language := some "rust" }, "😀\n\r\n", false⟩] ∧
      List.Forall₂ (fun s m => s.style = m.style ∧ (m.held = false → r.covered? s = some m.text))
        r.spans document.marks :=
  ⟨rfl, by decide, @spans_standard
    { rules := .standard, options := { unknownNodes := .skip, keepCodeFences := true } } _ _
    rfl rfl rfl⟩

end Pass

end MarkdownSpans
