import MarkdownSpans.Proofs.Render.Dispatch

/-!
# Two runs of the standard rules

A relation between programs that is a `Program.Congruence` holds between the standard rules of two
nodes as soon as it holds between what they have rendered: the inlines, the blocks or the items in
them. The parts of the rules that only write are the same in both (`Program.MapsBuffer`); of the
state of a pass, the rules look at nothing but the start of a line, the fences to be kept and,
where no lines were recorded after a block, the flag for the last block (`View.Agrees`). The rules
that open spans are covered by a `Program.SpanCongruence`, which holds inside the same span as well.
-/

namespace MarkdownSpans

/-- The standard rules have none for a node of an extension. -/
theorem RuleSet.find?_standard_of_custom {node : Node} (h : node.customName?.isSome) :
    RuleSet.standard.find? node = none := by
  obtain ⟨name, hname⟩ := Option.isSome_iff_exists.1 h
  rw [find?, hname]
  rfl

/-! ### Programs that only write -/

/-- The program always succeeds and changes the output alone, in a way that depends on the output
alone. -/
def Program.MapsBuffer (p : Program) : Prop :=
  ∃ f : Buffer → Buffer, ∀ (pass : Pass) (renderNode : Node → Context → Outcome) (c : Context),
    p.run pass renderNode c = (c.mapBuffer f).ok

namespace Program.MapsBuffer

variable {p q : Program}

theorem done : Program.done.MapsBuffer := ⟨id, fun _ _ _ => rfl⟩

theorem write (text : String) : (Program.write text).MapsBuffer := ⟨_, fun _ _ _ => rfl⟩

theorem writeChar (ch : Char) : (Program.writeChar ch).MapsBuffer := ⟨_, fun _ _ _ => rfl⟩

theorem writeLine (newline : Newline) : (Program.writeLine newline).MapsBuffer :=
  ⟨_, fun _ _ _ => rfl⟩

theorem writeDefaultLine : Program.writeDefaultLine.MapsBuffer := ⟨_, fun _ _ _ => rfl⟩

theorem ensureLine : Program.ensureLine.MapsBuffer := ⟨_, fun _ _ _ => rfl⟩

theorem seq (hp : p.MapsBuffer) (hq : q.MapsBuffer) : (Program.seq p q).MapsBuffer := by
  obtain ⟨f, hf⟩ := hp
  obtain ⟨g, hg⟩ := hq
  refine ⟨g ∘ f, fun pass renderNode c => ?_⟩
  rw [run, hf]
  exact hg pass renderNode (c.mapBuffer f)

theorem ite {b : Bool} (hp : p.MapsBuffer) (hq : q.MapsBuffer) :
    (if b then p else q).MapsBuffer := by
  split <;> assumption

theorem lines (ls : List Line) : (Program.lines ls).MapsBuffer := by
  induction ls with
  | nil => exact done
  | cons line rest ih => exact (write _).seq ((writeLine _).seq ih)

theorem linesBefore (trivia : Trivia) : (Program.linesBefore trivia).MapsBuffer := lines _

/-- Recorded lines after a block are written whatever the flags are. -/
theorem linesAfter {trivia : Trivia} (h : trivia.linesAfter.isSome) :
    (Program.linesAfter trivia).MapsBuffer := by
  obtain ⟨recorded, hrecorded⟩ := Option.isSome_iff_exists.1 h
  rw [Program.linesAfter, hrecorded]
  exact lines recorded

/-- With the flag for the last block set, the lines after a block depend on the output alone. -/
theorem withLast_linesAfter (isLast : Bool) (trivia : Trivia) :
    (Program.withLast isLast (.linesAfter trivia)).MapsBuffer := by
  cases h : trivia.linesAfter with
  | some recorded =>
    have recorded : trivia.linesAfter.isSome := by rw [h]; rfl
    obtain ⟨f, hf⟩ := linesAfter recorded
    exact ⟨f, fun pass renderNode c => by rw [run, hf]; rfl⟩
  | none =>
    rw [Program.linesAfter, h]
    cases isLast with
    | true => exact ⟨id, fun _ _ _ => rfl⟩
    | false => exact ⟨(·.writeDefaultLine), fun _ _ _ => rfl⟩

theorem marker (style : ListStyle) (index : Nat) : (Program.marker style index).MapsBuffer :=
  seq (ite ((write _).seq (writeChar _)) (writeChar _)) (writeChar _)

theorem separator (style : ListStyle) (isLast : Bool) :
    (Program.separator style isLast).MapsBuffer :=
  ite (ensureLine.seq writeDefaultLine) done

theorem terminators (recorded : List QuoteLine) : (Program.terminators recorded).MapsBuffer := by
  induction recorded with
  | nil => exact done
  | cons line rest ih => exact (writeLine _).seq ih

theorem htmlLines (content : List Line) : (Program.htmlLines content).MapsBuffer := by
  induction content with
  | nil => exact done
  | cons line rest ih =>
    exact (write _).seq ((ite writeDefaultLine (writeLine _)).seq (ih.seq done))

theorem title (d : LinkDefinition) : (Program.title d).MapsBuffer := by
  unfold Program.title
  split
  · exact (writeChar _).seq ((write _).seq ((writeChar _).seq done))
  · exact done

theorem address (d : LinkDefinition) : (Program.address d).MapsBuffer :=
  ite ((writeChar _).seq ((write _).seq ((writeChar _).seq done))) (write _)

theorem linkDefinition {d : LinkDefinition} (h : d.trivia.linesAfter.isSome) :
    (Program.linkDefinition d).MapsBuffer :=
  (linesBefore _).seq <| (write _).seq <| (writeChar _).seq <| (write _).seq <| (write _).seq <|
    (write _).seq <| (address d).seq <| (write _).seq <| (title d).seq <| (write _).seq <|
    (writeLine _).seq <| (linesAfter h).seq done

end Program.MapsBuffer

/-! ### What rules look at -/

/-- Two views show the same start of a line and the same fences to be kept; if the two runs are to
be `exact`, they show the same flag for the last block. -/
structure View.Agrees (exact : Prop) (v v' : View) : Prop where
  atLineStart : v'.atLineStart = v.atLineStart
  keepCodeFences : v'.options.keepCodeFences = v.options.keepCodeFences
  last : exact → v'.last = v.last

/-! ### Leaves -/

/-- The block holds neither blocks nor inlines that are rendered. -/
def Block.IsLeaf : Block → Prop
  | paragraph .. | heading .. | list .. | quote .. | linkDefinitionGroup .. => False
  | _ => True

/-- The block is a leaf without a span. -/
def Block.IsPlainLeaf : Block → Prop
  | codeBlock .. => False
  | b => b.IsLeaf

/-- The inline is no tag and holds no inlines that are rendered. -/
def Inline.IsLeaf : Inline → Prop
  | emphasis .. | link .. | delimiter .. | htmlInline .. => False
  | _ => True

/-- The inline is a leaf without a span. -/
def Inline.IsPlainLeaf : Inline → Prop
  | codeSpan .. | autolink .. => False
  | i => i.IsLeaf

/-! ### Programs around others -/

/-- A way to run a program inside another one. -/
inductive Wrapper where
  | span (style : SpanStyle)
  | indent (i : Indent)
  | withCompact (value : Bool)

namespace Wrapper

/-- Whether the wrapper opens a span. -/
def opensSpan : Wrapper → Bool
  | span _ => true
  | indent _ | withCompact _ => false

/-- The program with another one inside. -/
def around : Wrapper → Program → Program
  | span style, body => .span style body
  | indent i, body => .indent i body
  | withCompact value, body => .withCompact value body

/-- The context in which the program inside is run. -/
def enter : Wrapper → Context → Context
  | span style, c => c.openSpan style
  | indent i, c => c.mapBuffer (·.pushIndent i)
  | withCompact value, c => { c with compact := value }

/-- The context behind the wrapper, by the context before it and that behind the program inside. -/
def leave : Wrapper → Context → Context → Context
  | span _, c, d => d.closeSpan c.spans.size
  | indent _, _, d => d.mapBuffer (·.popIndent)
  | withCompact _, c, d => { d with compact := c.compact }

theorem run_around (w : Wrapper) (p : Program) (pass : Pass)
    (renderNode : Node → Context → Outcome) (c : Context) :
    (w.around p).run pass renderNode c =
      (p.run pass renderNode (w.enter c)).mapContext (w.leave c) := by
  cases w <;> rfl

end Wrapper

/-! ### Congruences -/

/-- A relation between programs that holds between the parts of a rule that only write, and between
two programs made in the same way from programs that are related. What is related has a list of its
own, such as that of the tags in it; the lists of programs one after another are joined. Unless the
relation is `exact`, the flag for the last block may differ. Nothing is said of spans. -/
structure Program.Congruence {α : Type} (exact : Prop)
    (Sim : List α → Program → Program → Prop) : Prop where
  maps {p : Program} (h : p.MapsBuffer) : Sim [] p p
  seq {p p' q q' : Program} {a b : List α} (hp : Sim a p p') (hq : Sim b q q') :
    Sim (a ++ b) (.seq p q) (.seq p' q')
  wrap {p p' : Program} {a : List α} (w : Wrapper) (hw : w.opensSpan = false) (hp : Sim a p p') :
    Sim a (w.around p) (w.around p')
  withLast {p p' : Program} {a : List α} {value value' : Bool} (h : exact → value' = value)
    (hp : Sim a p p') : Sim a (.withLast value p) (.withLast value' p')
  observe {next next' : View → Program} {a : List α}
    (h : ∀ v v' : View, v.Agrees exact v' → Sim a (next v) (next' v')) :
    Sim a (.observe next) (.observe next')

/-- Such a relation that holds inside the same span as well. -/
structure Program.SpanCongruence {α : Type} (exact : Prop)
    (Sim : List α → Program → Program → Prop) : Prop extends Program.Congruence exact Sim where
  span {p p' : Program} {a : List α} (style : SpanStyle) (hp : Sim a p p') :
    Sim a (.span style p) (.span style p')

namespace Program.Congruence

variable {α : Type} {exact : Prop} {Sim : List α → Program → Program → Prop} {p p' : Program}
  {ps ps' : List Program} {a b : List α}

section

variable (C : Congruence exact Sim)

include C

/-- The lines after a block are written alike if they were recorded, or if the flag for the last
block is the same. -/
theorem linesAfter {trivia : Trivia} (h : exact ∨ trivia.linesAfter.isSome) :
    Sim [] (.linesAfter trivia) (.linesAfter trivia) := by
  cases hrecorded : trivia.linesAfter with
  | some recorded =>
    have recorded : trivia.linesAfter.isSome := by rw [hrecorded]; rfl
    exact C.maps (.linesAfter recorded)
  | none =>
    have same : exact := h.resolve_right (by simp [hrecorded])
    rw [Program.linesAfter, hrecorded]
    refine C.observe fun v v' agrees => ?_
    rw [agrees.last same]
    exact C.maps (.ite .done .writeDefaultLine)

/-- What has no list of its own may stand behind another program. -/
theorem before {q q' : Program} (hp : Sim a p p') (hq : Sim [] q q') :
    Sim a (.seq p q) (.seq p' q') := by
  have joined := C.seq hp hq
  rwa [List.append_nil] at joined

theorem all_nil : Sim [] (.all []) (.all []) := C.maps .done

/-- What only writes may stand before other programs. -/
theorem all_maps (hp : p.MapsBuffer) (hps : Sim a (.all ps) (.all ps')) :
    Sim a (.all (p :: ps)) (.all (p :: ps')) :=
  C.seq (C.maps hp) hps

theorem all_cons (hp : Sim a p p') (hps : Sim [] (.all ps) (.all ps')) :
    Sim a (.all (p :: ps)) (.all (p' :: ps')) :=
  C.before hp hps

/-- Lines after a block may stand behind another program. -/
theorem all_linesAfter {trivia : Trivia} (hp : Sim a p p')
    (h : exact ∨ trivia.linesAfter.isSome) :
    Sim a (.all [p, .linesAfter trivia]) (.all [p', .linesAfter trivia]) :=
  C.all_cons hp (C.all_cons (C.linesAfter h) C.all_nil)

/-! ### Blocks -/

theorem paragraph {content content' : List Inline} {trivia : Trivia}
    (h : exact ∨ trivia.linesAfter.isSome)
    (hcontent : Sim a (.inlines content) (.inlines content')) :
    Sim a (Block.paragraph content trivia).program (Block.paragraph content' trivia).program :=
  C.all_maps (.linesBefore trivia) (C.all_maps (.write _) (C.all_linesAfter hcontent h))

theorem heading (level : Nat) {content content' : List Inline} (newline : Newline)
    {trivia : Trivia} (h : exact ∨ trivia.linesAfter.isSome)
    (hcontent : Sim a (.inlines content) (.inlines content')) :
    Sim a (.heading level content newline trivia) (.heading level content' newline trivia) :=
  C.all_maps (.linesBefore trivia) <| C.all_maps (.write _) <| C.all_maps (.writeChar _) <|
    C.all_cons hcontent <| C.all_maps (.writeLine newline) <| C.all_cons (C.linesAfter h) C.all_nil

/-- The items of a list are rendered alike if the first of them is, and the others are. -/
theorem items_cons {item item' : ListItem} {rest rest' : List ListItem} {style : ListStyle}
    {index : Nat} (htrivia : item'.trivia = item.trivia) (hlast : rest'.isEmpty = rest.isEmpty)
    (hitem : Sim a (.render (.item item)) (.render (.item item')))
    (hrest : Sim b (.items style (nextIndex style index) rest)
      (.items style (nextIndex style index) rest')) :
    Sim (a ++ b) (.items style index (item :: rest)) (.items style index (item' :: rest')) := by
  have behind : Sim b
      (.all [.withLast rest.isEmpty (.linesAfter item.trivia), separator style rest.isEmpty,
        .items style (nextIndex style index) rest])
      (.all [.withLast rest'.isEmpty (.linesAfter item'.trivia), separator style rest'.isEmpty,
        .items style (nextIndex style index) rest']) := by
    rw [htrivia, hlast]
    exact C.all_maps (.withLast_linesAfter _ _) <| C.all_maps (.separator style _) <|
      C.all_cons hrest C.all_nil
  exact C.all_maps .ensureLine <| C.all_maps (.marker style index) <|
    C.seq (C.wrap (.indent _) rfl hitem) behind

theorem list (style : ListStyle) {entries entries' : List ListItem} {trivia : Trivia}
    (h : exact ∨ trivia.linesAfter.isSome)
    (hentries : Sim a (.items style (firstIndex style) entries)
      (.items style (firstIndex style) entries')) :
    Sim a (.list style entries trivia) (.list style entries' trivia) :=
  C.all_maps .ensureLine <| C.all_linesAfter
    (C.wrap (.withCompact _) rfl (C.seq (C.maps (.linesBefore trivia)) hentries)) h

theorem quoted (leads : List String) (h : Sim a p p') :
    Sim a (.quoted leads p) (.quoted leads p') := by
  refine C.observe fun v v' agrees => ?_
  rw [agrees.atLineStart]
  split
  · exact C.wrap (.indent _) rfl h
  · exact C.seq (C.maps (.write _)) (C.wrap (.indent _) rfl h)

/-- A quote without blocks only ends its lines. -/
theorem emptyQuote (recorded : List QuoteLine) (trivia : Trivia) :
    Sim [] (.quote recorded [] trivia) (.quote recorded [] trivia) :=
  C.all_maps (.linesBefore trivia) <| C.all_maps (.write _) <|
    C.all_cons (C.quoted _ (C.maps (.terminators recorded))) <| C.all_maps .done C.all_nil

theorem quote (recorded : List QuoteLine) {children children' : List Block} {trivia : Trivia}
    (h : exact ∨ trivia.linesAfter.isSome) (hne : children ≠ []) (hne' : children' ≠ [])
    (hchildren : Sim a (.blocks children) (.blocks children')) :
    Sim a (.quote recorded children trivia) (.quote recorded children' trivia) := by
  have filled : children.isEmpty = false := by simpa using hne
  have filled' : children'.isEmpty = false := by simpa using hne'
  rw [Program.quote, Program.quote, filled, filled']
  exact C.all_maps (.linesBefore trivia) <| C.all_maps (.write _) <|
    C.all_linesAfter (C.quoted _ hchildren) h

/-- Blocks that hold neither blocks nor inlines, code apart. -/
theorem plainLeafBlock {block : Block} (hleaf : block.IsPlainLeaf)
    (h : exact ∨ block.trivia.linesAfter.isSome) : Sim [] block.program block.program := by
  cases block with
  | thematicBreak content newline trivia =>
    exact C.all_maps (.linesBefore trivia) <| C.all_maps (.write _) <|
      C.all_linesAfter (C.maps (.writeLine newline)) h
  | htmlBlock content trivia =>
    exact C.all_maps (.linesBefore trivia) <| C.all_linesAfter (C.maps (.htmlLines content)) h
  | linkDefinition d =>
    exact C.all_maps (.linesBefore _) <| C.all_maps (.write _) <| C.all_maps (.writeChar _) <|
      C.all_maps (.write _) <| C.all_maps (.write _) <| C.all_maps (.write _) <|
      C.all_maps (.address d) <| C.all_maps (.write _) <| C.all_maps (.title d) <|
      C.all_maps (.write _) <| C.all_linesAfter (C.maps (.writeLine d.newline)) h
  | emptyBlock trivia => exact C.linesAfter h
  | custom => exact C.maps .done
  | paragraph | heading | codeBlock | list | quote | linkDefinitionGroup => exact hleaf.elim

theorem linkDefinitionGroup {definitions : List LinkDefinition} {trivia : Trivia}
    (h : exact ∨ trivia.linesAfter.isSome)
    (hblocks : Sim a (.blocks (definitions.map .linkDefinition))
      (.blocks (definitions.map .linkDefinition))) :
    Sim a (Block.linkDefinitionGroup definitions trivia).program
      (Block.linkDefinitionGroup definitions trivia).program :=
  C.before hblocks (C.linesAfter h)

/-- Blocks are rendered alike if the first of them is, and the others are. -/
theorem blocks_cons {block block' : Block} {rest rest' : List Block}
    (hlast : exact → rest'.isEmpty = rest.isEmpty)
    (hblock : Sim a (.render (.block block)) (.render (.block block')))
    (hrest : Sim b (.blocks rest) (.blocks rest')) :
    Sim (a ++ b) (.blocks (block :: rest)) (.blocks (block' :: rest')) :=
  C.seq (C.withLast hlast hblock) hrest

theorem item {i i' : ListItem} (htrivia : i'.trivia = i.trivia)
    (hchildren : Sim a (.blocks i.children) (.blocks i'.children)) :
    Sim a (Node.item i).program (Node.item i').program := by
  show Sim a (.seq (linesBefore i.trivia) _) (.seq (linesBefore i'.trivia) _)
  rw [htrivia]
  exact C.seq (C.maps (.linesBefore i.trivia)) hchildren

/-! ### Inlines -/

theorem inlines_cons {i i' : Inline} {rest rest' : List Inline}
    (hi : Sim a (.render (.inline i)) (.render (.inline i')))
    (hrest : Sim b (.inlines rest) (.inlines rest')) :
    Sim (a ++ b) (.inlines (i :: rest)) (.inlines (i' :: rest')) :=
  C.seq hi hrest

theorem delimiter (text : String) {children children' : List Inline}
    (h : Sim a (.inlines children) (.inlines children')) :
    Sim a (Inline.delimiter text children).program (Inline.delimiter text children').program :=
  C.seq (C.maps (.write text)) h

theorem plainLeafInline {i : Inline} (h : i.IsPlainLeaf) : Sim [] i.program i.program := by
  cases i with
  | literal content => exact C.maps (.write content)
  | lineBreak newline hard => exact C.maps (.writeLine newline)
  | htmlEntity spelling decoded => exact C.maps (.write spelling)
  | custom => exact C.maps .done
  | emphasis | codeSpan | autolink | link | htmlInline | delimiter => exact h.elim

end

end Program.Congruence

namespace Program.SpanCongruence

variable {α : Type} {exact : Prop} {Sim : List α → Program → Program → Prop} {a : List α}

/-! ### Spans -/

section

variable (C : SpanCongruence exact Sim)

include C

theorem codeBlock (content : List Line) (fence : Option Fence) {trivia : Trivia}
    (h : exact ∨ trivia.linesAfter.isSome) :
    Sim [] (.codeBlock content fence trivia) (.codeBlock content fence trivia) := by
  refine C.observe fun v v' agrees => ?_
  simp only [agrees.keepCodeFences]
  exact C.all_maps (.linesBefore trivia) <| C.all_maps (.write _) <| C.all_maps (.lines _) <|
    C.all_cons (C.span _ (C.maps (.lines content))) <| C.all_maps (.lines _) <|
    C.all_maps (.write _) <| C.all_cons (C.linesAfter h) C.all_nil

/-- Blocks that hold neither blocks nor inlines. -/
theorem leafBlock {block : Block} (hleaf : block.IsLeaf)
    (h : exact ∨ block.trivia.linesAfter.isSome) : Sim [] block.program block.program := by
  cases block with
  | codeBlock content fence trivia => exact C.codeBlock content fence h
  | thematicBreak | htmlBlock | linkDefinition | emptyBlock | custom =>
    exact C.plainLeafBlock trivial h
  | paragraph | heading | list | quote | linkDefinitionGroup => exact hleaf.elim

theorem emphasis (mark : Char) (count : Nat) {children children' : List Inline}
    (h : Sim a (.inlines children) (.inlines children')) :
    Sim a (Inline.emphasis mark count children).program
      (Inline.emphasis mark count children').program := by
  simp only [Inline.program]
  split
  · exact C.span _ h
  · exact h

theorem link (url : String) (title : Option String) (isImage : Bool)
    {children children' : List Inline} (h : Sim a (.inlines children) (.inlines children')) :
    Sim a (Inline.link url title isImage children).program
      (Inline.link url title isImage children').program :=
  C.span _ h

/-- Inlines that hold none. -/
theorem leafInline {i : Inline} (h : i.IsLeaf) : Sim [] i.program i.program := by
  cases i with
  | codeSpan content => exact C.span _ (C.maps (.write content))
  | autolink url isEmail => exact C.span _ (C.maps (.write url))
  | literal | lineBreak | htmlEntity | custom => exact C.plainLeafInline trivial
  | emphasis | link | htmlInline | delimiter => exact h.elim

end

/-! ### One program with itself -/

section Self

variable (C : SpanCongruence True Sim) {parts : Node → List α}
  (h : ∀ node, Sim (parts node) (.render node) (.render node))

include C h

theorem inlines_self (is : List Inline) :
    Sim ((is.map Node.inline).flatMap parts) (.inlines is) (.inlines is) := by
  induction is with
  | nil => exact C.maps .done
  | cons i rest ih => exact C.inlines_cons (h (.inline i)) ih

theorem blocks_self (bs : List Block) :
    Sim ((bs.map Node.block).flatMap parts) (.blocks bs) (.blocks bs) := by
  induction bs with
  | nil => exact C.maps .done
  | cons b rest ih => exact C.blocks_cons (fun _ => rfl) (h (.block b)) ih

theorem items_self (style : ListStyle) (index : Nat) (entries : List ListItem) :
    Sim ((entries.map Node.item).flatMap parts) (.items style index entries)
      (.items style index entries) := by
  induction entries generalizing index with
  | nil => exact C.maps .done
  | cons i rest ih => exact C.items_cons rfl rfl (h (.item i)) (ih _)

theorem inlineProgram_self {i : Inline} (htag : ∀ tag, i ≠ .htmlInline tag) :
    Sim ((Node.inline i).parts.flatMap parts) i.program i.program := by
  cases i with
  | emphasis mark count children => exact C.emphasis mark count (C.inlines_self h children)
  | link url title isImage children => exact C.link url title isImage (C.inlines_self h children)
  | delimiter text children => exact C.delimiter text (C.inlines_self h children)
  | htmlInline tag => exact absurd rfl (htag tag)
  | literal | codeSpan | autolink | lineBreak | htmlEntity | custom => exact C.leafInline trivial

theorem blockProgram_self (b : Block) :
    Sim ((Node.block b).parts.flatMap parts) b.program b.program := by
  cases b with
  | paragraph content trivia => exact C.paragraph (.inl trivial) (C.inlines_self h content)
  | heading level content newline trivia =>
    exact C.heading level newline (.inl trivial) (C.inlines_self h content)
  | list style entries trivia => exact C.list style (.inl trivial) (C.items_self h style _ entries)
  | quote recorded children trivia =>
    by_cases hempty : children = []
    · subst hempty
      exact C.emptyQuote recorded trivia
    · exact C.quote recorded (.inl trivial) hempty hempty (C.blocks_self h children)
  | linkDefinitionGroup definitions trivia =>
    have group := C.blocks_self h (definitions.map .linkDefinition)
    rw [List.map_map] at group
    exact C.linkDefinitionGroup (.inl trivial) group
  | codeBlock | thematicBreak | htmlBlock | linkDefinition | emptyBlock | custom =>
    exact C.leafBlock trivial (.inl trivial)

/-- **A relation that holds between each node and itself holds between their rules and themselves**,
raw tags apart; the lists of the parts of a node are joined. -/
theorem program_self {node : Node} (htag : ∀ tag, node ≠ .inline (.htmlInline tag)) :
    Sim (node.parts.flatMap parts) node.program node.program := by
  cases node with
  | document d => exact C.blocks_self h d.blocks
  | item i => exact C.item rfl (C.blocks_self h i.children)
  | block b => exact C.blockProgram_self h b
  | inline i => exact C.inlineProgram_self h fun tag heq => htag tag (congrArg Node.inline heq)

end Self

end Program.SpanCongruence

end MarkdownSpans
