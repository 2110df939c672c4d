import MarkdownSpans.Proofs.Document.Extensions
import MarkdownSpans.Proofs.Render.Congruence
import MarkdownSpans.Proofs.Render.Dispatch
import MarkdownSpans.Proofs.Render.Spans

/-!
# Skipping unknown nodes

A pass with the standard rules that skips unknown nodes does on a settled document what a pass that
refuses them does on the document without the nodes of extensions (`Pass.run_skipped`). The two runs
differ in the flag for the last block at most, which no rule of a settled document looks at.
-/

namespace MarkdownSpans

/-! ### The flag for the last block -/

/-- The contexts differ in the flag for the last block at most, and not even there if they are to be
the same exactly. -/
def Context.Follows (exact : Prop) (c c' : Context) : Prop :=
  ∃ last, c' = { c with last } ∧ (exact → last = c.last)

/-- The same error, if any, and contexts that differ in the flag for the last block at most. -/
structure Outcome.Follows (exact : Prop) (o o' : Outcome) : Prop where
  error : o'.error = o.error
  context : o.context.Follows exact o'.context

namespace Context.Follows

variable {exact : Prop} {c c' : Context}

theorem refl (c : Context) : c.Follows exact c := ⟨c.last, rfl, fun _ => rfl⟩

theorem ok (h : c.Follows exact c') : c.ok.Follows exact c'.ok := ⟨rfl, h⟩

theorem failed (h : c.Follows exact c') (error : RenderError) :
    (c.failed error).Follows exact (c'.failed error) :=
  ⟨rfl, h⟩

/-- Both contexts may be changed in a way that leaves the flag alone. -/
theorem map {f : Context → Context}
    (hf : ∀ (d : Context) (last : Bool), f { d with last } = { f d with last })
    (hlast : ∀ d, (f d).last = d.last) (h : c.Follows exact c') : (f c).Follows exact (f c') := by
  obtain ⟨last, rfl, hexact⟩ := h
  exact ⟨last, hf c last, fun e => (hexact e).trans (hlast c).symm⟩

/-- The flag may be set in both. -/
theorem setLast {value value' : Bool} (hvalue : exact → value' = value)
    {exact' : Prop} (h : c.Follows exact' c') :
    ({ c with last := value } : Context).Follows exact { c' with last := value' } := by
  obtain ⟨last, rfl, -⟩ := h
  exact ⟨value', rfl, hvalue⟩

theorem agrees (h : c.Follows exact c') {options options' : RenderOptions}
    (hfences : options'.keepCodeFences = options.keepCodeFences) :
    (c.view options).Agrees exact (c'.view options') := by
  obtain ⟨last, rfl, hexact⟩ := h
  exact ⟨rfl, hfences, hexact⟩

end Context.Follows

/-- A pass that ends in either gives the same. -/
theorem Outcome.Follows.rendering_eq {exact : Prop} {o o' : Outcome} (h : o.Follows exact o') :
    (⟨o.result, o.context.offers, o.context.notes⟩ : Rendering) =
      ⟨o'.result, o'.context.offers, o'.context.notes⟩ := by
  obtain ⟨herror, last, hcontext, -⟩ := h
  rw [result, result, herror, hcontext]
  rfl

/-! ### Two runs -/

/-- The pass that refuses unknown nodes. -/
def Pass.refusing (pass : Pass) : Pass :=
  { pass with options := { pass.options with unknownNodes := .error } }

namespace Program

/-- In the pass that refuses unknown nodes the second program does what the first does in the pass
itself. -/
def Matches (pass : Pass) (levels : Nat) (exact : Prop) (p p' : Program) : Prop :=
  ∀ c c' : Context, c.Follows exact c' →
    (p.run pass (pass.render levels) c).Follows exact
      (p'.run pass.refusing (pass.refusing.render levels) c')

namespace Matches

variable {pass : Pass} {levels : Nat} {exact : Prop} {p p' q q' : Program}

theorem maps (h : p.MapsBuffer) : Matches pass levels exact p p := by
  intro c c' hc
  obtain ⟨f, hf⟩ := h
  rw [hf, hf]
  exact (hc.map (f := (·.mapBuffer f)) (fun _ _ => rfl) fun _ => rfl).ok

theorem seq (hp : Matches pass levels exact p p') (hq : Matches pass levels exact q q') :
    Matches pass levels exact (.seq p q) (.seq p' q') := by
  intro c c' hc
  have first := hp c c' hc
  simp only [run, Outcome.andThen, first.error]
  cases (p.run pass (pass.render levels) c).error with
  | none => exact hq _ _ first.context
  | some error => exact first

/-- A program that does nothing may be left out. -/
theorem drop (hp : ∀ c, p.run pass (pass.render levels) c = c.ok)
    (hq : Matches pass levels exact q q') : Matches pass levels exact (.seq p q) q' := by
  intro c c' hc
  rw [run, hp]
  exact hq c c' hc

theorem wrap (w : Wrapper) (hp : Matches pass levels exact p p') :
    Matches pass levels exact (w.around p) (w.around p') := by
  intro c c' hc
  have inside := hp _ _
    (hc.map (f := w.enter) (fun d last => by cases w <;> rfl) fun d => by cases w <;> rfl)
  have leave : w.leave c' = w.leave c := by
    obtain ⟨last, rfl, -⟩ := hc
    cases w <;> rfl
  rw [w.run_around, w.run_around, leave]
  exact ⟨inside.error, inside.context.map (f := w.leave c) (fun d last => by cases w <;> rfl)
    fun d => by cases w <;> rfl⟩

/-- With the same flag set in both, the programs may go by it; the flags before need not agree. -/
theorem withLast {inner : Prop} {value value' : Bool} (hvalue : inner → value' = value)
    (hp : Matches pass levels inner p p') :
    Matches pass levels exact (.withLast value p) (.withLast value' p') := by
  intro c c' hc
  have inside := hp _ _ (hc.setLast hvalue)
  refine ⟨inside.error, inside.context.setLast fun e => ?_⟩
  obtain ⟨last, rfl, hexact⟩ := hc
  exact hexact e

theorem observe {next next' : View → Program}
    (h : ∀ v v' : View, v.Agrees exact v' → Matches pass levels exact (next v) (next' v')) :
    Matches pass levels exact (.observe next) (.observe next') :=
  fun c c' hc => h (c.view pass.options) (c'.view pass.refusing.options) (hc.agrees rfl) c c' hc

/-- A tag is offered to the same interceptor after the same tags. -/
theorem intercept (tag : String) {next : Bool → Program}
    (h : ∀ answer, Matches pass levels exact (next answer) (next answer)) :
    Matches pass levels exact (.intercept tag next) (.intercept tag next) := by
  intro c c' hc
  have answers : pass.refusing.handles c' tag = pass.handles c tag := by
    obtain ⟨last, rfl, -⟩ := hc
    rfl
  rw [run, run, answers]
  exact h _ _ _ (hc.map (f := (·.offer tag (pass.handles c tag))) (fun _ _ => rfl) fun _ => rfl)

/-- What is rendered in the two passes agrees as long as their programs do. -/
theorem congruence (pass : Pass) (levels : Nat) (exact : Prop) :
    SpanCongruence exact fun _ : List Unit => Matches pass levels exact where
  maps := maps
  seq := seq
  wrap w _ := wrap w
  span style := wrap (.span style)
  withLast := withLast
  observe := observe

/-- A node whose program matches that of another one is rendered like it. -/
theorem render (hrules : pass.rules = .standard) {node node' : Node}
    (hname : node.customName? = none) (hname' : node'.customName? = none)
    (h : ∀ k, levels = k + 1 → Matches pass k exact node.program node'.program) :
    Matches pass levels exact (.render node) (.render node') := by
  intro c c' hc
  have hrule := Pass.find?_of_standard hrules hname
  have hrule' : pass.refusing.rules.find? node' = _ := Pass.find?_of_standard hrules hname'
  have depth : c'.depth = c.depth := by
    obtain ⟨last, rfl, -⟩ := hc
    rfl
  rw [run, run]
  rcases pass.stuck_or_shallow levels c with stuck | ⟨k, rfl, shallow⟩
  · have stuck' : pass.refusing.Stuck levels c' := stuck.imp_left (depth ▸ ·)
    rw [Pass.render_of_stuck hrule stuck, Pass.render_of_stuck hrule' stuck']
    exact hc.failed _
  · have inside := h k rfl _ _ (hc.map (f := (·.enterNode)) (fun _ _ => rfl) fun _ => rfl)
    have shallow' : c'.depth < pass.refusing.options.maxDepth := depth ▸ shallow
    rw [Pass.render_succ hrule shallow, Pass.render_succ hrule' shallow', standardRule, if_pos rfl,
      standardRule, if_pos rfl]
    exact ⟨inside.error, inside.context.map (f := (·.leaveNode)) (fun _ _ => rfl) fun _ => rfl⟩

/-! ### Nodes one after another -/

/-- A node of an extension is skipped. -/
theorem run_custom (hrules : pass.rules = .standard)
    (hskip : pass.options.unknownNodes = .skip) {node : Node} (hname : node.customName?.isSome)
    (c : Context) : (Program.render node).run pass (pass.render levels) c = c.ok := by
  have hrule : pass.rules.find? node = none := hrules ▸ RuleSet.find?_standard_of_custom hname
  rw [run, Pass.render_of_none hrule, Pass.unknown, hskip]

section Lists

variable (hrules : pass.rules = .standard) (hskip : pass.options.unknownNodes = .skip)
  (ih : ∀ node : Node, node.Settled → node.customName? = none →
    Matches pass levels False (.render node) (.render node.builtIn))

include hrules hskip ih

theorem inlines (is : List Inline) :
    Matches pass levels False (.inlines is) (.inlines (Inline.listBuiltIn is)) := by
  induction is with
  | nil => exact maps .done
  | cons i rest ih_rest =>
    rw [Inline.listBuiltIn]
    split
    case isTrue hcustom =>
      refine drop (run_custom hrules hskip ?_) ih_rest
      cases i with
      | custom => rfl
      | _ => cases hcustom
    case isFalse hbuiltIn =>
      refine seq (ih (.inline i) trivial ?_) ih_rest
      cases i with
      | custom => exact absurd rfl hbuiltIn
      | _ => rfl

theorem blocks {bs : List Block} (h : Block.ListSettled bs) :
    Matches pass levels False (.blocks bs) (.blocks (Block.listBuiltIn bs)) := by
  induction bs with
  | nil => exact maps .done
  | cons b rest ih_rest =>
    rw [Block.ListSettled] at h
    rw [Block.listBuiltIn]
    split
    case isTrue hcustom =>
      have skipped : ∀ c, (Program.withLast rest.isEmpty (.render (.block b))).run pass
          (pass.render levels) c = c.ok := by
        intro c
        rw [run, run_custom hrules hskip]
        · rfl
        · cases b with
          | custom => rfl
          | _ => cases hcustom
      exact drop skipped (ih_rest h.2)
    case isFalse hbuiltIn =>
      -- Which block is the last may change, but no rule goes by it.
      refine seq (withLast (fun exact : False => exact.elim) (ih (.block b) h.1 ?_)) (ih_rest h.2)
      cases b with
      | custom => exact absurd rfl hbuiltIn
      | _ => rfl

omit hrules hskip in
theorem items (style : ListStyle) (index : Nat) {entries : List ListItem}
    (h : Block.ItemsSettled entries) :
    Matches pass levels False (.items style index entries)
      (.items style index (Block.itemsBuiltIn entries)) := by
  induction entries generalizing index with
  | nil => exact maps .done
  | cons item rest ih_rest =>
    obtain ⟨children, trivia⟩ := item
    rw [Block.ItemsSettled] at h
    rw [Block.itemsBuiltIn]
    have last : (Block.itemsBuiltIn rest).isEmpty = rest.isEmpty := by
      cases rest with
      | nil => rfl
      | cons item more => cases item; rfl
    exact (congruence pass levels False).items_cons (a := []) (b := []) rfl last
      (ih (.item ⟨children, trivia⟩) h.1 rfl) (ih_rest _ h.2)

end Lists

/-- The definitions of a group are rendered alike, since none of them is left out. -/
theorem linkDefinitions (hrules : pass.rules = .standard) (definitions : List LinkDefinition) :
    Matches pass levels False (.blocks (definitions.map .linkDefinition))
      (.blocks (definitions.map .linkDefinition)) := by
  induction definitions with
  | nil => exact maps .done
  | cons d rest ih =>
    have rendered : Matches pass levels True (.render (.block (.linkDefinition d)))
        (.render (.block (.linkDefinition d))) :=
      render hrules rfl rfl fun k _ =>
        (congruence pass k True).leafBlock (show (Block.linkDefinition d).IsLeaf from trivial)
          (.inl trivial)
    exact seq (withLast (fun _ => rfl) rendered) ih

section Rules

variable (hrules : pass.rules = .standard) (hskip : pass.options.unknownNodes = .skip)
  (ih : ∀ node : Node, node.Settled → node.customName? = none →
    Matches pass levels False (.render node) (.render node.builtIn))

include hrules hskip ih

theorem inlineProgram (i : Inline) : Matches pass levels False i.program i.builtIn.program := by
  have C := congruence pass levels False
  have content := inlines hrules hskip ih
  cases i with
  | emphasis mark count children => exact C.emphasis (a := []) mark count (content children)
  | link url title isImage children => exact C.link (a := []) url title isImage (content children)
  | delimiter text children => exact C.delimiter (a := []) text (content children)
  | htmlInline tag =>
    refine intercept tag fun handled => ?_
    split
    · exact maps .done
    · exact maps (.write tag)
  | literal | codeSpan | autolink | lineBreak | htmlEntity | custom =>
    exact C.leafInline trivial

theorem blockProgram {b : Block} (h : b.Settled) :
    Matches pass levels False b.program b.builtIn.program := by
  have C := congruence pass levels False
  have content := inlines hrules hskip ih
  cases b with
  | paragraph inlines trivia => exact C.paragraph (a := []) (.inr h) (content inlines)
  | heading level inlines newline trivia =>
    exact C.heading (a := []) level newline (.inr h) (content inlines)
  | list style entries trivia =>
    rw [Block.Settled] at h
    exact C.list (a := []) style (.inr h.1) (items ih style _ h.2)
  | quote recorded children trivia =>
    rw [Block.Settled] at h
    obtain ⟨after, kept, settled⟩ := h
    rw [Block.builtIn]
    by_cases hempty : children = []
    · subst hempty
      exact C.emptyQuote recorded trivia
    · have left : Block.listBuiltIn children ≠ [] := fun hnone =>
        hempty (kept (Block.isCustom_of_listBuiltIn hnone))
      exact C.quote (a := []) recorded (.inr after) hempty left (blocks hrules hskip ih settled)
  | linkDefinitionGroup definitions trivia =>
    exact C.linkDefinitionGroup (a := []) (.inr h) (linkDefinitions hrules definitions)
  | codeBlock | thematicBreak | htmlBlock | linkDefinition | emptyBlock =>
    exact C.leafBlock trivial (.inr h)
  | custom => exact maps .done

/-- **The rules of a node and of what is left of it agree if the nodes in it do.** -/
theorem program {node : Node} (h : node.Settled) :
    Matches pass levels False node.program node.builtIn.program := by
  cases node with
  | document d => exact blocks hrules hskip ih h
  | block b => exact blockProgram hrules hskip ih h
  | item i => exact (congruence pass levels False).item (a := []) rfl (blocks hrules hskip ih h)
  | inline i => exact inlineProgram hrules hskip ih i

end Rules

end Matches

end Program

namespace Pass

variable {pass : Pass}

/-- What is left of a settled node is rendered by the pass that refuses unknown nodes like the node
itself by the pass that skips them. -/
theorem matches_render (hrules : pass.rules = .standard)
    (hskip : pass.options.unknownNodes = .skip) (levels : Nat) {node : Node} (h : node.Settled)
    (hname : node.customName? = none) :
    Program.Matches pass levels False (.render node) (.render node.builtIn) := by
  induction levels using Nat.strongRecOn generalizing node with
  | ind levels ih =>
    refine .render hrules hname (Node.builtIn_kind hname).2 fun k hk => ?_
    subst hk
    exact .program hrules hskip (fun part hpart => ih k (Nat.lt_succ_self k) hpart) h

/-- **Skipping unknown nodes is the same as leaving them out.** Let every block of a document that
does not belong to an extension have recorded lines after it, and let no quote have only blocks of
extensions in it, unless it has none. Then a pass with the standard rules that skips unknown nodes
gives the same error, or the same text and spans, as the pass that refuses them gives on the
document without the blocks and the inlines of extensions, and it offers the same tags with the same
answers to the interceptor. -/
theorem run_skipped (options : RenderOptions) (interceptor : Option Interceptor)
    (document : Document) (h : document.Settled) :
    ({ rules := .standard, options := { options with unknownNodes := .skip }, interceptor } :
        Pass).run document =
      ({ rules := .standard, options := { options with unknownNodes := .error }, interceptor } :
        Pass).run document.builtIn := by
  let pass : Pass :=
    { rules := .standard, options := { options with unknownNodes := .skip }, interceptor }
  have rendered : Program.Matches pass pass.options.maxDepth False
      (.render (.document document)) (.render (Node.document document).builtIn) :=
    matches_render rfl rfl _ h rfl
  exact (rendered _ _ (.refl (.start pass.options))).rendering_eq

/-- A quote whose last block and a list whose last item lose their extensions. The item has no
recorded lines after it, and no limit is reached below the nodes that are left out. -/
theorem run_skipped_quote :
    let document : Document := ⟨[
      .quote [.marked .lf, .marked .lf]
        [.paragraph [.literal "a", .custom "math" "x" [.literal "x"], .lineBreak .lf false,
          .emphasis '*' 1 [.custom "math" "y" [], .literal "b"]] .tracked,
        .custom "poll" [.quote [] [.quote [] [] {}] {}] [] [] {}]
        { linesAfter := some [⟨"", .lf⟩] },
      .list {} [⟨[.custom "poll" [] [] [] {}], {}⟩, ⟨[.paragraph [.literal "c"] .tracked], {}⟩]
        .tracked,
      .custom "poll" [] [] [] {}]⟩
    let pass (policy : UnknownNodePolicy) : Pass :=
      { rules := .standard, options := { maxDepth := 5, unknownNodes := policy } }
    let r : RichText := ⟨"> a\n> b\n- \n- c", [⟨6, 1, { kind := .bold }⟩], .utf16⟩
    document.Settled ∧ (pass .skip).run document = (pass .error).run document.builtIn ∧
      ((pass .error).run document.builtIn).result = .ok r ∧
      ((pass .error).run document).result = .error (.unknownNode "math") := by
  intro document pass r
  have settled : document.Settled := by
    simp [document, Document.Settled, Block.ListSettled, Block.Settled, Block.ItemsSettled,
      Block.isCustom, Block.trivia, Trivia.tracked]
  exact ⟨settled, run_skipped { maxDepth := 5 } none document settled, by decide, by decide⟩

end Pass

end MarkdownSpans
