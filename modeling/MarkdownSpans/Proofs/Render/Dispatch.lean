import MarkdownSpans.Proofs.Render.Extent
import MarkdownSpans.Render.Rules

/-!
# The nodes that a rule has rendered

`Program.Renders p ns` says that `p` has the nodes `ns` rendered, in this order, whatever it sees on
the way, and neither fails by itself nor leaves a flag changed. The standard rule of a node renders
`Node.parts` (`Node.renders_program`). So a pass with standard rules fails by its first node that is
unknown or nested too deep, which `Pass.failure` finds (`Pass.error_render`).
-/

namespace MarkdownSpans

/-- The program has the nodes of a list rendered in turn; it neither fails by itself, nor goes on
after an error, nor leaves a flag changed. -/
inductive Program.Renders : Program → List Node → Prop where
  | done : Renders .done []
  | write (text : String) : Renders (.write text) []
  | writeChar (c : Char) : Renders (.writeChar c) []
  | writeLine (newline : Newline) : Renders (.writeLine newline) []
  | writeDefaultLine : Renders .writeDefaultLine []
  | ensureLine : Renders .ensureLine []
  | seq {p q : Program} {ms ns : List Node} (hp : Renders p ms) (hq : Renders q ns) :
    Renders (.seq p q) (ms ++ ns)
  | span {p : Program} {ns : List Node} (style : SpanStyle) (hp : Renders p ns) :
    Renders (.span style p) ns
  | indent {p : Program} {ns : List Node} (i : Indent) (hp : Renders p ns) :
    Renders (.indent i p) ns
  | withCompact {p : Program} {ns : List Node} (value : Bool) (hp : Renders p ns) :
    Renders (.withCompact value p) ns
  | withLast {p : Program} {ns : List Node} (value : Bool) (hp : Renders p ns) :
    Renders (.withLast value p) ns
  | render (node : Node) : Renders (.render node) [node]
  | intercept {next : Bool → Program} {ns : List Node} (tag : String)
    (h : ∀ answer, Renders (next answer) ns) : Renders (.intercept tag next) ns
  | observe {next : View → Program} {ns : List Node} (h : ∀ view, Renders (next view) ns) :
    Renders (.observe next) ns

namespace Program.Renders

/-! ### Runs -/

section Runs

variable {p : Program} {ns : List Node} {pass : Pass} {levels : Nat}

/-- Such a program fails by the first of its nodes that fails. -/
theorem error_run (h : p.Renders ns) (depth : Nat) {failure : Node → Option RenderError}
    (hfail : ∀ node ∈ ns, ∀ c : Context, c.depth = depth →
      (pass.render levels node c).error = failure node) (c : Context) (hc : c.depth = depth) :
    (p.run pass (pass.render levels) c).error = ns.findSome? failure := by
  induction h generalizing c with
  | done | write | writeChar | writeLine | writeDefaultLine | ensureLine => rfl
  | @seq p q ms ns _ _ ihp ihq =>
    -- The second program starts at the depth of the first, so nodes fail in it as they do there.
    have first := ihp (fun node hn => hfail node (List.mem_append_left _ hn)) c hc
    have depth_first : (p.run pass (pass.render levels) c).context.depth = depth :=
      (p.passage_run (pass.passage_render levels) c).depth.trans hc
    simp only [run, Outcome.andThen, List.findSome?_append, ← first]
    cases herror : (p.run pass (pass.render levels) c).error with
    | none => exact ihq (fun node hn => hfail node (List.mem_append_right _ hn)) _ depth_first
    | some error => simpa using herror
  | span style _ ih => exact ih hfail (c.openSpan style) hc
  | indent i _ ih => exact ih hfail (c.mapBuffer (·.pushIndent i)) hc
  | withCompact value _ ih => exact ih hfail { c with compact := value } hc
  | withLast value _ ih => exact ih hfail { c with last := value } hc
  | render node =>
    rw [run, hfail node (List.mem_singleton_self node) c hc]
    cases h : failure node <;> simp [h]
  | intercept tag _ ih => exact ih _ hfail _ hc
  | observe _ ih => exact ih _ hfail c hc

/-- Such a program leaves the flags as they are if its nodes do. -/
theorem flags_run (h : p.Renders ns)
    (hflags : ∀ node ∈ ns, ∀ c, (pass.render levels node c).context.compact = c.compact ∧
      (pass.render levels node c).context.last = c.last) (c : Context) :
    (p.run pass (pass.render levels) c).context.compact = c.compact ∧
      (p.run pass (pass.render levels) c).context.last = c.last := by
  induction h generalizing c with
  | done | write | writeChar | writeLine | writeDefaultLine | ensureLine => exact ⟨rfl, rfl⟩
  | @seq p q ms ns _ _ ihp ihq =>
    obtain ⟨compact, last⟩ := ihp (fun node hn => hflags node (List.mem_append_left _ hn)) c
    simp only [run, Outcome.andThen]
    cases (p.run pass (pass.render levels) c).error with
    | none =>
      obtain ⟨compact', last'⟩ := ihq (fun node hn => hflags node (List.mem_append_right _ hn))
        (p.run pass (pass.render levels) c).context
      exact ⟨compact'.trans compact, last'.trans last⟩
    | some error => exact ⟨compact, last⟩
  | span style _ ih => exact ih hflags (c.openSpan style)
  | indent i _ ih => exact ih hflags (c.mapBuffer (·.pushIndent i))
  | withCompact value _ ih => exact ⟨rfl, (ih hflags { c with compact := value }).2⟩
  | withLast value _ ih => exact ⟨(ih hflags { c with last := value }).1, rfl⟩
  | render node => exact hflags node (List.mem_singleton_self node) c
  | intercept tag _ ih => exact ih _ hflags _
  | observe _ ih => exact ih _ hflags c

end Runs

/-! ### Lists of programs -/

/-- Programs one after another render their nodes one after another. -/
theorem all_cons {p : Program} {ps : List Program} {ms ns : List Node} (hp : p.Renders ms)
    (hps : (Program.all ps).Renders ns) : (Program.all (p :: ps)).Renders (ms ++ ns) :=
  .seq hp hps

theorem all_nil : (Program.all []).Renders [] := .done

/-- A program that renders nothing may stand before others. -/
theorem all_silent {p : Program} {ps : List Program} {ns : List Node} (hp : p.Renders [])
    (hps : (Program.all ps).Renders ns) : (Program.all (p :: ps)).Renders ns :=
  .seq hp hps

/-- Programs that render nothing may stand behind another. -/
theorem all_before {p : Program} {ps : List Program} {ns : List Node} (hp : p.Renders ns)
    (hps : (Program.all ps).Renders []) : (Program.all (p :: ps)).Renders ns := by
  simpa using Program.Renders.all_cons hp hps

theorem lines (ls : List Line) : (Program.lines ls).Renders [] := by
  induction ls with
  | nil => exact .done
  | cons line rest ih => exact .seq (.write _) (.seq (.writeLine _) ih)

theorem linesBefore (trivia : Trivia) : (Program.linesBefore trivia).Renders [] := .lines _

theorem linesAfter (trivia : Trivia) : (Program.linesAfter trivia).Renders [] := by
  unfold Program.linesAfter
  split
  · exact .lines _
  · refine .observe fun view => ?_
    split
    · exact .done
    · exact .writeDefaultLine

theorem inlines (is : List Inline) : (Program.inlines is).Renders (is.map .inline) := by
  induction is with
  | nil => exact .done
  | cons i rest ih => exact .seq (.render _) ih

theorem blocks (bs : List Block) : (Program.blocks bs).Renders (bs.map .block) := by
  induction bs with
  | nil => exact .done
  | cons b rest ih => exact .seq (.withLast _ (.render _)) ih

/-! ### The standard rules -/

theorem marker (style : ListStyle) (index : Nat) : (Program.marker style index).Renders [] := by
  have sign : (if style.ordered then Program.seq (.write (toString index))
      (.writeChar style.delimiter) else .writeChar style.bullet).Renders [] := by
    split
    · exact .seq (.write _) (.writeChar _)
    · exact .writeChar _
  exact .seq sign (.writeChar _)

theorem separator (style : ListStyle) (isLast : Bool) :
    (Program.separator style isLast).Renders [] := by
  unfold Program.separator
  split
  · exact .seq .ensureLine .writeDefaultLine
  · exact .done

theorem items (style : ListStyle) (index : Nat) (entries : List ListItem) :
    (Program.items style index entries).Renders (entries.map .item) := by
  induction entries generalizing index with
  | nil => exact .done
  | cons item rest ih =>
    refine .all_silent .ensureLine (.all_silent (.marker style index) ?_)
    refine .all_cons (.indent _ (.render (.item item))) ?_
    refine .all_silent (.withLast _ (.linesAfter _)) (.all_silent (.separator style _) ?_)
    exact .all_before (ih (Program.nextIndex style index)) .all_nil

theorem list (style : ListStyle) (entries : List ListItem) (trivia : Trivia) :
    (Program.list style entries trivia).Renders (entries.map .item) := by
  have body : (Program.withCompact (!style.loose) (.seq (.linesBefore trivia)
      (Program.items style (Program.firstIndex style) entries))).Renders (entries.map .item) :=
    .withCompact _ (.seq (.linesBefore trivia) (.items style _ entries))
  exact .all_silent .ensureLine (.all_before body (.all_silent (.linesAfter trivia) .all_nil))

theorem terminators (recorded : List QuoteLine) : (Program.terminators recorded).Renders [] := by
  induction recorded with
  | nil => exact .done
  | cons line rest ih => exact .seq (.writeLine _) ih

theorem quoted {body : Program} {ns : List Node} (leads : List String) (h : body.Renders ns) :
    (Program.quoted leads body).Renders ns := by
  refine .observe fun view => ?_
  split
  · exact .indent _ h
  · exact .seq (.write _) (.indent _ h)

theorem quote (recorded : List QuoteLine) (children : List Block) (trivia : Trivia) :
    (Program.quote recorded children trivia).Renders (children.map .block) := by
  have content : (if children.isEmpty then Program.terminators recorded
      else Program.blocks children).Renders (children.map .block) := by
    cases children with
    | nil => exact .terminators recorded
    | cons b rest => exact .blocks (b :: rest)
  have after : (if children.isEmpty then Program.done else .linesAfter trivia).Renders [] := by
    split
    · exact .done
    · exact .linesAfter trivia
  exact .all_silent (.linesBefore trivia) (.all_silent (.write _)
    (.all_before (content.quoted (recorded.map (·.lead))) (.all_silent after .all_nil)))

theorem heading (level : Nat) (content : List Inline) (newline : Newline) (trivia : Trivia) :
    (Program.heading level content newline trivia).Renders (content.map .inline) :=
  .all_silent (.linesBefore trivia) <| .all_silent (.write _) <| .all_silent (.writeChar _) <|
    .all_before (.inlines content) <| .all_silent (.writeLine newline) <|
    .all_silent (.linesAfter trivia) .all_nil

theorem codeBlock (content : List Line) (fence : Option Fence) (trivia : Trivia) :
    (Program.codeBlock content fence trivia).Renders [] :=
  .observe fun _ => .all_silent (.linesBefore trivia) <| .all_silent (.write _) <|
    .all_silent (.lines _) <| .all_silent (.span _ (.lines content)) <| .all_silent (.lines _) <|
    .all_silent (.write _) <| .all_silent (.linesAfter trivia) .all_nil

theorem htmlLines (content : List Line) : (Program.htmlLines content).Renders [] := by
  induction content with
  | nil => exact .done
  | cons line rest ih =>
    refine .all_silent (.write _) (.all_silent ?_ (.all_silent ih .all_nil))
    split
    · exact .writeDefaultLine
    · exact .writeLine _

theorem title (d : LinkDefinition) : (Program.title d).Renders [] := by
  unfold Program.title
  split
  · exact .all_silent (.writeChar _) (.all_silent (.write _) (.all_silent (.writeChar _) .all_nil))
  · exact .done

theorem address (d : LinkDefinition) : (Program.address d).Renders [] := by
  unfold Program.address
  split
  · exact .all_silent (.writeChar _) (.all_silent (.write _) (.all_silent (.writeChar _) .all_nil))
  · exact .write _

theorem linkDefinition (d : LinkDefinition) : (Program.linkDefinition d).Renders [] :=
  .all_silent (.linesBefore _) <| .all_silent (.write _) <| .all_silent (.writeChar _) <|
    .all_silent (.write _) <| .all_silent (.write _) <| .all_silent (.write _) <|
    .all_silent (.address d) <| .all_silent (.write _) <| .all_silent (.title d) <|
    .all_silent (.write _) <| .all_silent (.writeLine _) <| .all_silent (.linesAfter _) .all_nil

end Program.Renders

namespace Node

/-- The nodes that the standard rule of a node has rendered. -/
def parts : Node → List Node
  | document d => d.blocks.map .block
  | item i => i.children.map .block
  | block (.paragraph inlines _) => inlines.map .inline
  | block (.heading _ inlines _ _) => inlines.map .inline
  | block (.list _ items _) => items.map .item
  | block (.quote _ children _) => children.map .block
  | block (.linkDefinitionGroup definitions _) =>
    definitions.map fun d => .block (.linkDefinition d)
  | inline (.emphasis _ _ children) => children.map .inline
  | inline (.link _ _ _ children) => children.map .inline
  | inline (.delimiter _ children) => children.map .inline
  | _ => []

end Node

theorem Inline.renders_program (i : Inline) : i.program.Renders (Node.inline i).parts := by
  cases i with
  | literal content => exact .write content
  | emphasis mark count children =>
    simp only [Inline.program]
    split
    · exact .span _ (.inlines children)
    · exact .inlines children
  | codeSpan content => exact .span _ (.write content)
  | autolink url isEmail => exact .span _ (.write url)
  | link url title isImage children => exact .span _ (.inlines children)
  | lineBreak newline hard => exact .writeLine newline
  | htmlInline tag =>
    refine .intercept tag fun handled => ?_
    split
    · exact .done
    · exact .write tag
  | htmlEntity spelling decoded => exact .write spelling
  | delimiter text children => exact .seq (.write text) (.inlines children)
  | custom kind content children => exact .done

theorem Block.renders_program (b : Block) : b.program.Renders (Node.block b).parts := by
  cases b with
  | paragraph inlines trivia =>
    exact .all_silent (.linesBefore trivia) (.all_silent (.write _)
      (.all_before (.inlines inlines) (.all_silent (.linesAfter trivia) .all_nil)))
  | heading level inlines newline trivia => exact .heading level inlines newline trivia
  | codeBlock lines fence trivia => exact .codeBlock lines fence trivia
  | list style items trivia => exact .list style items trivia
  | quote lines children trivia => exact .quote lines children trivia
  | thematicBreak content newline trivia =>
    exact .all_silent (.linesBefore trivia) (.all_silent (.write content)
      (.all_silent (.writeLine newline) (.all_silent (.linesAfter trivia) .all_nil)))
  | htmlBlock lines trivia =>
    exact .all_silent (.linesBefore trivia) (.all_silent (.htmlLines lines)
      (.all_silent (.linesAfter trivia) .all_nil))
  | linkDefinition d => exact .linkDefinition d
  | linkDefinitionGroup definitions trivia =>
    have group := Program.Renders.seq (.blocks (definitions.map .linkDefinition))
      (.linesAfter trivia)
    rwa [List.map_map, List.append_nil] at group
  | emptyBlock trivia => exact .linesAfter trivia
  | custom kind children inlines lines trivia => exact .done

/-- **The standard rule of a node renders its parts.** -/
theorem Node.renders_program (node : Node) : node.program.Renders node.parts := by
  cases node with
  | document d => exact .blocks d.blocks
  | block b => exact b.renders_program
  | item i => exact .seq (.linesBefore i.trivia) (.blocks i.children)
  | inline i => exact i.renders_program

/-! ### Passes with standard rules -/

/-- Each rule of the set renders its nodes as the standard rule does. -/
def RuleSet.FollowsStandard (rules : RuleSet) : Prop :=
  ∀ node rule, rules.find? node = some rule → rule node = node.program

theorem RuleSet.find?_standard {node : Node} (h : node.customName? = none) :
    RuleSet.standard.find? node = some (standardRule node.kind) := by
  rw [RuleSet.find?, h]
  cases node with
  | document | item => rfl
  | block b => cases b <;> first | rfl | cases h
  | inline i => cases i <;> first | rfl | cases h

theorem RuleSet.followsStandard_standard : RuleSet.standard.FollowsStandard := by
  intro node rule h
  cases hname : node.customName? with
  | none =>
    rw [find?_standard hname, Option.some.injEq] at h
    rw [← h, standardRule, if_pos rfl]
  | some name => simp [find?, hname, standard] at h

namespace Pass

/-- The error of a node without a rule. -/
def unknownError? (pass : Pass) (node : Node) : Option RenderError :=
  match pass.options.unknownNodes with
  | .skip => none
  | .error => some (.unknownNode node.kindName)

theorem unknown_eq (pass : Pass) (node : Node) (c : Context) :
    pass.unknown node c = ⟨c, pass.unknownError? node⟩ := by
  unfold unknown unknownError?
  cases pass.options.unknownNodes <;> rfl

theorem error_unknown (pass : Pass) (node : Node) (c : Context) :
    (pass.unknown node c).error = pass.unknownError? node := by
  rw [unknown_eq]

/-- The error that ends the rendering of a node by standard rules where `levels` nodes may be nested
in one another: that of the first node without a rule or with no level left. -/
def failure (pass : Pass) (levels : Nat) (node : Node) : Option RenderError :=
  match pass.rules.find? node with
  | none => pass.unknownError? node
  | some _ =>
    match levels with
    | 0 => some (.depthLimit pass.options.maxDepth)
    | levels + 1 => node.parts.findSome? (pass.failure levels)

section Failure

variable {pass : Pass} {node : Node} {rule : Rule}

theorem failure_of_none (levels : Nat) (h : pass.rules.find? node = none) :
    pass.failure levels node = pass.unknownError? node := by
  rw [failure.eq_def, h]

theorem failure_zero (h : pass.rules.find? node = some rule) :
    pass.failure 0 node = some (.depthLimit pass.options.maxDepth) := by
  rw [failure.eq_def, h]

theorem failure_succ (levels : Nat) (h : pass.rules.find? node = some rule) :
    pass.failure (levels + 1) node = node.parts.findSome? (pass.failure levels) := by
  rw [failure.eq_def, h]

end Failure

variable {pass : Pass}

/-- **A pass with standard rules fails by its first node that is unknown or nested too deep.** -/
theorem error_render (hrules : pass.rules.FollowsStandard) (levels : Nat) (node : Node)
    (c : Context) (hdepth : c.depth + levels = pass.options.maxDepth) :
    (pass.render levels node c).error = pass.failure levels node := by
  induction levels generalizing node c with
  | zero =>
    cases hrule : pass.rules.find? node with
    | none => rw [render_of_none hrule, failure_of_none 0 hrule, error_unknown]
    | some rule => rw [render_zero hrule, failure_zero hrule, Context.failed]
  | succ levels ih =>
    cases hrule : pass.rules.find? node with
    | none => rw [render_of_none hrule, failure_of_none _ hrule, error_unknown]
    | some rule =>
      -- One level less and one more of the depth: the two run out together.
      have shallow : c.depth < pass.options.maxDepth := by omega
      rw [render_succ hrule shallow, failure_succ levels hrule, Outcome.mapContext,
        hrules node rule hrule]
      refine node.renders_program.error_run (c.depth + 1) (fun part _ d hd => ?_) _ rfl
      exact ih part d (by omega)

/-- Every node of a built-in kind has a standard rule. -/
theorem find?_of_standard (hrules : pass.rules = .standard) {node : Node}
    (hname : node.customName? = none) :
    pass.rules.find? node = some (standardRule node.kind) := by
  rw [hrules, RuleSet.find?_standard hname]

/-- A node of a built-in kind is rendered by its standard rule, one level deeper. -/
theorem render_standard (hrules : pass.rules = .standard) {levels : Nat} {node : Node}
    (hname : node.customName? = none) {c : Context} (shallow : c.depth < pass.options.maxDepth) :
    pass.render (levels + 1) node c =
      (node.program.run pass (pass.render levels) c.enterNode).mapContext (·.leaveNode) := by
  rw [render_succ (find?_of_standard hrules hname) shallow, standardRule, if_pos rfl]

/-- A pass with standard rules restores the flags. -/
theorem flags_render (hrules : pass.rules.FollowsStandard) (levels : Nat) (node : Node)
    (c : Context) :
    (pass.render levels node c).context.compact = c.compact ∧
      (pass.render levels node c).context.last = c.last := by
  induction levels using Nat.strongRecOn generalizing node c with
  | ind levels ih =>
    cases hrule : pass.rules.find? node with
    | none =>
      rw [render_of_none hrule, context_unknown]
      exact ⟨rfl, rfl⟩
    | some rule =>
      rcases pass.stuck_or_shallow levels c with stuck | ⟨k, rfl, shallow⟩
      · rw [render_of_stuck hrule stuck]
        exact ⟨rfl, rfl⟩
      · rw [render_succ hrule shallow, hrules node rule hrule]
        exact node.renders_program.flags_run (fun part _ d => ih k (Nat.lt_succ_self k) part d)
          c.enterNode

end Pass

end MarkdownSpans
