import MarkdownSpans.Proofs.Render.Reach
import MarkdownSpans.Proofs.Render.Trailing

/-!
# The default separator

A block behind which no lines were recorded is followed by one default terminator, unless it is the
last one of its container; so are the items of a list and the definitions of a group. All of them
share one flag, which the containers inside a block set for their own blocks. What a `Site` in a
container writes depends on its own place there alone (`Pass.separator_of_site`): each container
sets the flag for a block right before it and restores it behind it.
-/

namespace MarkdownSpans

theorem Outcome.eq_ok {o : Outcome} (h : o.error = none) : o = o.context.ok := by
  obtain ⟨c, error⟩ := o
  obtain rfl : error = none := h
  rfl

/-! ### Trivia -/

theorem Block.withTrivia_trivia (b : Block) : b.withTrivia b.trivia = b := by
  cases b <;> rfl

/-- The item with these lines behind it. -/
def ListItem.withLinesAfter (lines : List Line) (i : ListItem) : ListItem :=
  .mk i.children { i.trivia with linesAfter := some lines }

namespace Program

variable {pass : Pass} {levels : Nat} {renderNode : Node → Context → Outcome}

/-- Programs one after another may be run in two parts. -/
theorem run_all_append (pass : Pass) (renderNode : Node → Context → Outcome) (ps qs : List Program)
    (c : Context) :
    (all (ps ++ qs)).run pass renderNode c =
      ((all ps).run pass renderNode c).andThen ((all qs).run pass renderNode) := by
  induction ps generalizing c with
  | nil => rfl
  | cons p rest ih =>
    show (p.run pass renderNode c).andThen ((all (rest ++ qs)).run pass renderNode) =
      ((p.run pass renderNode c).andThen ((all rest).run pass renderNode)).andThen _
    rw [funext ih, Outcome.andThen_assoc]

/-- What stands behind a block that has no lines recorded behind it. -/
def separate (isLast : Bool) (d : Context) : Outcome :=
  if isLast then d.ok else (d.mapBuffer (·.writeDefaultLine)).ok

/-- Where no lines were recorded, the flag for the last block decides. -/
theorem GoesOn.linesAfter (trivia : Trivia) :
    GoesOn pass renderNode (fun d => separate d.last d)
      (.linesAfter { trivia with linesAfter := none })
      (.linesAfter { trivia with linesAfter := some [] }) := by
  intro c
  show (if c.last then Program.done else .writeDefaultLine).run pass renderNode c =
    separate c.last c
  cases c.last <;> rfl

/-- A block is told by its container whether it is the last one, whatever is set inside it. -/
theorem GoesOn.block (hrules : pass.rules = .standard) {b : Block}
    (hname : (Node.block b).customName? = none) (hbare : b.isBareQuote = false)
    (hlines : b.trivia.linesAfter = none) (isLast : Bool) :
    GoesOn pass (pass.render levels) (separate isLast)
      (.withLast isLast (.render (.block b)))
      (.withLast isLast (.render (.block (b.withLinesAfter [])))) := by
  have same : b.withTrivia { b.trivia with linesAfter := none } = b := by
    rw [← hlines]
    exact b.withTrivia_trivia
  have body (levels : Nat) : GoesOn pass (pass.render levels) (fun d => separate d.last d)
      b.program (b.withLinesAfter []).program := by
    have whole : GoesOn pass (pass.render levels) _
        (b.withTrivia { b.trivia with linesAfter := none }).program _ :=
      .program hname hbare GoesOn.linesAfter
    rwa [same] at whole
  have leave (d : Context) : separate d.leaveNode.last d.leaveNode =
      (separate d.last d).mapContext (·.leaveNode) := by
    unfold separate
    show (if d.last then _ else _) = _
    split <;> rfl
  have rendered : GoesOn pass (pass.render levels) _ (.render (.block b)) _ :=
    .render hrules hname ((b.customName?_withLinesAfter []).trans hname) leave body
  intro c
  rw [run, run, rendered { c with last := isLast }]
  -- The block leaves the flag as its container set it.
  have flag : (pass.render levels (.block (b.withLinesAfter []))
      { c with last := isLast }).context.last = isLast :=
    (Pass.flags_render (hrules ▸ RuleSet.followsStandard_standard) levels _ _).2
  rw [run]
  generalize pass.render levels (.block (b.withLinesAfter [])) { c with last := isLast } = o at flag
  obtain ⟨d, error⟩ := o
  cases error with
  | some error => rfl
  | none =>
    change d.last = isLast at flag
    show (separate d.last d).mapContext _ = separate isLast _
    rw [flag]
    cases isLast <;> rfl

/-- What a list does for one of its items, before what sets it apart from the next one. -/
def entry (style : ListStyle) (index : Nat) (i : ListItem) (isLast : Bool) : Program :=
  all [ensureLine, marker style index,
    indent (.spaces (markerWidth style index)) (render (.item i)),
    withLast isLast (linesAfter i.trivia)]

/-- The lines behind an item make no difference to what is rendered inside it. -/
theorem render_item_withLinesAfter (hrules : pass.rules = .standard) (i : ListItem)
    (lines : List Line) (c : Context) :
    pass.render levels (.item (i.withLinesAfter lines)) c = pass.render levels (.item i) c := by
  have same : GoesOn pass (pass.render levels) Context.ok
      (.render (.item (i.withLinesAfter lines))) (.render (.item i)) :=
    .render hrules rfl rfl (fun _ => rfl) fun _ _ => (Outcome.andThen_ok _).symm
  exact (same c).trans (Outcome.andThen_ok _)

/-- So is an item by its list. -/
theorem GoesOn.entry (hrules : pass.rules = .standard) (style : ListStyle) (index : Nat)
    {i : ListItem} (hlines : i.trivia.linesAfter = none) (isLast : Bool) :
    GoesOn pass (pass.render levels) (separate isLast) (.entry style index i isLast)
      (.entry style index (i.withLinesAfter []) isLast) := by
  have behind : GoesOn pass (pass.render levels) (separate isLast)
      (.withLast isLast (.linesAfter i.trivia))
      (.withLast isLast (.linesAfter (i.withLinesAfter []).trivia)) := by
    intro c
    have unrecorded : { i.trivia with linesAfter := none } = i.trivia := by rw [← hlines]
    have after : GoesOn pass (pass.render levels) _
        (.linesAfter { i.trivia with linesAfter := none }) _ := .linesAfter i.trivia
    rw [unrecorded] at after
    rw [run, after]
    cases isLast <;> rfl
  intro c
  have content : pass.render levels (.item (i.withLinesAfter [])) = pass.render levels (.item i) :=
    funext fun d => render_item_withLinesAfter hrules i [] d
  have whole := GoesOn.all [.ensureLine, .marker style index,
    .indent (.spaces (markerWidth style index)) (.render (.item i))] behind c
  simp only [Program.entry, Program.all, run, content]
  exact whole

end Program

/-! ### Sites -/

/-- A place in a container: a block of a container of blocks, a definition of a group, or an item of
a list with its number; each with those behind it. -/
inductive Site where
  | block (b : Block) (after : List Block)
  | item (style : ListStyle) (index : Nat) (i : ListItem) (after : List ListItem)

namespace Site

/-- Whether nothing stands behind it in its container. -/
def isLast : Site → Bool
  | block _ after => after.isEmpty
  | item _ _ _ after => after.isEmpty

/-- The white space and blank lines around what stands there. -/
def trivia : Site → Trivia
  | block b _ => b.trivia
  | item _ _ i _ => i.trivia

/-- What stands there is neither of an extension nor a quote without blocks. -/
def IsRegular : Site → Prop
  | block b _ => (Node.block b).customName? = none ∧ b.isBareQuote = false
  | item .. => True

/-- The site with a record that no lines stand behind it. -/
def tracked : Site → Site
  | block b after => block (b.withLinesAfter []) after
  | item style index i after => item style index (i.withLinesAfter []) after

/-- What the container does for the site. -/
def own : Site → Program
  | block b after => .withLast after.isEmpty (.render (.block b))
  | item style index i after => .entry style index i after.isEmpty

/-- What the container does behind the site. -/
def behind : Site → Program
  | block _ after => .blocks after
  | item style index _ after =>
    .all [.separator style after.isEmpty, .items style (Program.nextIndex style index) after]

/-- What the container does from the site on. -/
def onward : Site → Program
  | block b after => .blocks (b :: after)
  | item style index i after => .items style index (i :: after)

theorem run_onward (site : Site) (pass : Pass) (renderNode : Node → Context → Outcome)
    (c : Context) :
    site.onward.run pass renderNode c =
      (site.own.run pass renderNode c).andThen (site.behind.run pass renderNode) := by
  cases site with
  | block => rfl
  | item style index i after =>
    exact Program.run_all_append pass renderNode [_, _, _, _]
      [.separator style after.isEmpty, .items style (Program.nextIndex style index) after] c

/-- **Without recorded lines, a site does what it does with none recorded and is separated from the
next one.** -/
theorem goesOn_own {pass : Pass} {levels : Nat} (hrules : pass.rules = .standard) {site : Site}
    (hregular : site.IsRegular) (hlines : site.trivia.linesAfter = none) :
    Program.GoesOn pass (pass.render levels) (Program.separate site.isLast) site.own
      site.tracked.own := by
  cases site with
  | block b after => exact .block hrules hregular.1 hregular.2 hlines _
  | item style index i after => exact .entry hrules style index hlines _

end Site

namespace Node

/-- The blocks in a container of blocks, and the definitions in a group. -/
def blocks : Node → List Block
  | document d => d.blocks
  | item i => i.children
  | block (.quote _ children _) => children
  | block (.linkDefinitionGroup definitions _) => definitions.map .linkDefinition
  | _ => []

/-- The sites in a container. -/
inductive HasSite : Node → Site → Prop where
  | block {node : Node} {before after : List Block} {b : Block}
    (h : node.blocks = before ++ b :: after) : HasSite node (.block b after)
  | item {style : ListStyle} {before after : List ListItem} {i : ListItem} {trivia : Trivia} :
    HasSite (.block (.list style (before ++ i :: after) trivia))
      (.item style ((Program.nextIndex style)^[before.length] (Program.firstIndex style)) i after)

/-- The node is another one or stands below it. -/
def Below (part node : Node) : Prop :=
  Relation.ReflTransGen (fun node part => part ∈ node.parts) node part

/-- A container has its blocks rendered one after another. -/
theorem leadsTo_blocks {pass : Pass} {node : Node} (h : node.blocks ≠ []) :
    Program.LeadsTo pass node.program (.blocks node.blocks) := by
  cases node with
  | document d => exact .refl _
  | item i => exact .second _ (.refl _)
  | inline => exact absurd rfl h
  | block b =>
    cases b with
    | quote recorded children trivia =>
      have filled : children.isEmpty = false := List.isEmpty_eq_false_iff.2 h
      show Program.LeadsTo pass (.quote recorded children trivia) _
      rw [Program.quote, filled]
      exact .second _ (.second _ (.first _ (.quoted _ (.refl _))))
    | linkDefinitionGroup => exact .first _ (.refl _)
    | _ => exact absurd rfl h

/-- A container comes to each of its sites. -/
theorem HasSite.leadsTo {pass : Pass} {node : Node} {site : Site} (h : node.HasSite site) :
    Program.LeadsTo pass node.program site.onward := by
  cases h with
  | @block node before after b h =>
    have filled : node.blocks ≠ [] := by simp [h]
    have first : Program.LeadsTo pass node.program _ := leadsTo_blocks filled
    rw [h] at first
    exact first.trans (.blocks before (b :: after))
  | @item style before after i trivia =>
    refine .second _ (.first _ (.wrap (.withCompact _) (.second _ ?_)))
    exact .items style _ before (i :: after)

theorem HasSite.customName?_eq_none {node : Node} {site : Site} (h : node.HasSite site) :
    node.customName? = none := by
  cases h with
  | @block node before after b h =>
    cases node with
    | document | item => rfl
    | block block => cases block <;> first | rfl | simp [blocks] at h
    | inline => simp [blocks] at h
  | item => rfl

end Node

namespace Pass

/-- **The default separator depends on a block's own place alone.** Let a pass with the standard
rules succeed, and let a site in a container anywhere in the document be regular and have no lines
recorded behind it. The pass comes to the site, and wherever it does, it goes through it just as if
it were recorded that no lines stand there, and then writes one default terminator with the leads
that are pending, unless the site is the last one of its container. -/
theorem separator_of_site {pass : Pass} {document : Document} {r : RichText}
    (hrules : pass.rules = .standard) (hresult : (pass.run document).result = .ok r)
    {container : Node} (hcontainer : container.Below (.document document)) {site : Site}
    (hsite : container.HasSite site) (hregular : site.IsRegular)
    (hlines : site.trivia.linesAfter = none) :
    let whole : Moment :=
      ⟨pass.options.maxDepth, .render (.document document), .start pass.options⟩
    (∃ levels c, Moment.Reaches pass whole ⟨levels, site.onward, c⟩) ∧
    ∀ levels c, Moment.Reaches pass whole ⟨levels, site.onward, c⟩ →
      ∃ (d : Context) (piece : String),
        site.tracked.own.run pass (pass.render levels) c = d.ok ∧
        site.own.run pass (pass.render levels) c =
          (if site.isLast then d else d.mapBuffer (·.writeDefaultLine)).ok ∧
        d.buffer.text = c.buffer.text ++ piece ∧
        (site.own.run pass (pass.render levels) c).context.buffer.text =
          c.buffer.text ++ piece ++
            if site.isLast then "" else d.buffer.owedLead ++ pass.options.newline.text := by
  intro whole
  have success : (whole.outcome pass).error = none := by
    have outcome := result_run pass document
    rw [hresult] at outcome
    split at outcome
    · cases outcome
    · assumption
  refine ⟨?_, fun levels c reached => ?_⟩
  · have onward := (Program.LeadsTo.below hrules hcontainer).trans
      ((Program.LeadsTo.render hrules hsite.customName?_eq_none).trans hsite.leadsTo)
    exact onward _ _ success
  · -- The run from the site on succeeds, and so does what is done for the site itself.
    have onward := reached.success success
    rw [Moment.outcome, Site.run_onward] at onward
    have own := (Outcome.of_error_andThen onward).1
    have same : site.own.run pass (pass.render levels) c = _ :=
      Site.goesOn_own hrules hregular hlines c
    rw [same] at own
    have tracked := (Outcome.of_error_andThen own).1
    obtain ⟨d, hd⟩ : ∃ d, site.tracked.own.run pass (pass.render levels) c = Context.ok d :=
      ⟨_, Outcome.eq_ok tracked⟩
    have passage : Passage c _ (site.tracked.own.run pass (pass.render levels) c).context :=
      site.tracked.own.passage_run (pass.passage_render levels) c
    rw [hd] at passage
    obtain ⟨piece, text, -⟩ := passage.continues.appended
    change d.buffer.text = c.buffer.text ++ piece at text
    have newline : d.buffer.newline = pass.options.newline :=
      passage.continues.newline.trans reached.newline
    refine ⟨d, piece, hd, ?_, text, ?_⟩
    · rw [same, hd]
      show Program.separate site.isLast d = _
      unfold Program.separate
      split <;> rfl
    · rw [same, hd]
      show (Program.separate site.isLast d).context.buffer.text = _
      unfold Program.separate
      split
      · exact text.trans String.append_empty.symm
      · show (d.buffer.writeLine d.buffer.newline).text = _
        rw [Buffer.writeLine_text, newline, text, String.append_assoc]

/-- A quote in an item in a quote: its blocks are set apart by a line with all the leads, and so is
the quote from the rule behind it. -/
theorem separator_of_site_nested :
    let inner : Block := .quote [.marked .lf, .marked .lf, .marked .lf]
      [.paragraph [.literal "a", .lineBreak .lf false] {},
        .paragraph [.literal "b", .lineBreak .lf false] {}] {}
    let item : ListItem := .mk [inner, .thematicBreak "***" .lf {}] {}
    let pass : Pass := { rules := .standard }
    let document : Document := ⟨[.quote (List.replicate 5 (.marked .lf)) [.list {} [item] {}] {}]⟩
    let site : Site := .block inner [.thematicBreak "***" .lf {}]
    (pass.run document).result = .ok ⟨"> - > a\n>   > \n>   > b\n>   \n>   ***\n", [], .utf16⟩ ∧
      (Node.item item).Below (.document document) ∧ (Node.item item).HasSite site ∧
      ∃ (levels : Nat) (c d : Context),
        Moment.Reaches pass ⟨128, .render (.document document), .start {}⟩
          ⟨levels, site.onward, c⟩ ∧
        site.tracked.own.run pass (pass.render levels) c = d.ok ∧
        site.own.run pass (pass.render levels) c = (d.mapBuffer (·.writeDefaultLine)).ok := by
  intro inner item pass document site
  have result : (pass.run document).result =
      .ok ⟨"> - > a\n>   > \n>   > b\n>   \n>   ***\n", [], .utf16⟩ := by decide +kernel
  have below : (Node.item item).Below (.document document) :=
    .tail (.tail (.tail .refl (.head _)) (.head _)) (.head _)
  have blocks : (Node.item item).blocks = [] ++ inner :: [.thematicBreak "***" .lf {}] := rfl
  have has : (Node.item item).HasSite site := .block blocks
  obtain ⟨⟨levels, c, reached⟩, through⟩ :=
    separator_of_site rfl result below has ⟨rfl, rfl⟩ rfl
  obtain ⟨d, piece, tracked, own, -, -⟩ := through levels c reached
  exact ⟨result, below, has, levels, c, d, reached, tracked, own⟩

end Pass

end MarkdownSpans
