import MarkdownSpans.Proofs.Render.Indented

/-!
# Blocks under line leads

Blocks and items are rendered from settled pages to settled pages (`Program.Stacks`), so the lines
that they write do not depend on the containers around them. Rendering blocks under line leads is
rendering them without leads and putting the leads before the lines (`Pass.text_blocks_indented`).
-/

namespace MarkdownSpans

namespace Program

variable {pass : Pass} {newline : Newline} {n : Nat} {p q : Program}

/-- From every neat and settled page the program leads to a neat and settled page. -/
def Stacks (pass : Pass) (newline : Newline) (n : Nat) (p : Program) : Prop :=
  ∀ (last : Bool) (page : Page), page.Neat → page.Settled →
    ∃ page' : Page, page'.Neat ∧ page'.Settled ∧ page'.inner.length = page.inner.length ∧
      Lays pass newline n p last page page'

/-- What flows from every page stacks on settled ones. -/
theorem Flows.stacks {text : String} (h : Flows pass newline n p text) :
    Stacks pass newline n p := by
  intro last page hneat hsettled
  obtain ⟨page', hneat', hlength, hsettled', hlays⟩ := h last page hneat
  exact ⟨page', hneat', hsettled' (.inl hsettled), hlength, hlays⟩

namespace Stacks

theorem done : Stacks pass newline n .done := Flows.done.stacks

theorem write {text : String} (h : Unbroken text.toList) : Stacks pass newline n (.write text) :=
  (Flows.write h).stacks

theorem writeChar {c : Char} (h : isLineEnd c = false) : Stacks pass newline n (.writeChar c) :=
  (Flows.writeChar h).stacks

theorem writeLine {terminator : Newline} (h : terminator.HasFeed) :
    Stacks pass newline n (.writeLine terminator) := (Flows.writeLine h "").stacks

theorem writeDefaultLine (h : newline.HasFeed) : Stacks pass newline n .writeDefaultLine :=
  fun _ page hneat _ => ⟨page.writeLine newline, hneat.writeLine h, Page.settled_finish newline,
    page.length_inner_writeLine newline, .writeDefaultLine h⟩

theorem ensureLine (h : newline.HasFeed) : Stacks pass newline n .ensureLine :=
  fun _ page hneat hsettled => ⟨page.ensureLine newline, hneat.ensureLine h,
    hsettled.ensureLine newline, page.length_inner_ensureLine newline, .ensureLine h hsettled⟩

theorem seq (hp : Stacks pass newline n p) (hq : Stacks pass newline n q) :
    Stacks pass newline n (.seq p q) := by
  intro last page hneat hsettled
  obtain ⟨page₁, hneat₁, hsettled₁, hlength₁, hlays₁⟩ := hp last page hneat hsettled
  obtain ⟨page₂, hneat₂, hsettled₂, hlength₂, hlays₂⟩ := hq last page₁ hneat₁ hsettled₁
  exact ⟨page₂, hneat₂, hsettled₂, hlength₂.trans hlength₁, hlays₁.seq hlays₂⟩

theorem ite {condition : Prop} [Decidable condition]
    (hp : condition → Stacks pass newline n p) (hq : ¬condition → Stacks pass newline n q) :
    Stacks pass newline n (if condition then p else q) := by
  split
  · exact hp ‹_›
  · exact hq ‹_›

/-- Programs one after another. -/
theorem all {ps : List Program} (h : ∀ p ∈ ps, Stacks pass newline n p) :
    Stacks pass newline n (.all ps) := by
  induction ps with
  | nil => exact .done
  | cons p rest ih => exact (h p (.head _)).seq (ih fun p hp => h p (.tail _ hp))

/-- A container whose leads hold no line end. -/
theorem indent {i : Indent} (hi : i.Plain) (hp : Stacks pass newline n p) :
    Stacks pass newline n (.indent i p) := by
  intro last page hneat hsettled
  obtain ⟨page', hneat', hsettled', hlength, hlays⟩ :=
    hp last (page.pushIndent i) (hneat.pushIndent hi) hsettled
  have length : page'.inner.length = page.inner.length + 1 := by
    simpa [Page.pushIndent] using hlength
  have hinner : page'.inner ≠ [] := List.ne_nil_of_length_eq_add_one length
  refine ⟨page'.popIndent, hneat'.popIndent, hsettled', ?_, hlays.indent hsettled hsettled' hinner⟩
  simp [Page.popIndent, length]

theorem withCompact {value : Bool} (hp : Stacks pass newline n p) :
    Stacks pass newline n (.withCompact value p) := by
  intro last page hneat hsettled
  obtain ⟨page', hneat', hsettled', hlength, hlays⟩ := hp last page hneat hsettled
  exact ⟨page', hneat', hsettled', hlength, hlays.withCompact⟩

theorem withLast {value : Bool} (hp : Stacks pass newline n p) :
    Stacks pass newline n (.withLast value p) := by
  intro last page hneat hsettled
  obtain ⟨page', hneat', hsettled', hlength, hlays⟩ := hp value page hneat hsettled
  exact ⟨page', hneat', hsettled', hlength, hlays.withLast⟩

theorem render {node : Node} (hrules : pass.rules = .standard) (hname : node.customName? = none)
    (hp : Stacks pass newline n node.program) : Stacks pass newline (n + 1) (.render node) := by
  intro last page hneat hsettled
  obtain ⟨page', hneat', hsettled', hlength, hlays⟩ := hp last page hneat hsettled
  exact ⟨page', hneat', hsettled', hlength, hlays.render hrules hname⟩

/-- A look at the pass that goes by the options, by whether the block is the last and by whether a
line goes on. -/
theorem observe {next : View → Program} (choose : Bool → Bool → Program)
    (hnext : ∀ view, view.options = pass.options → next view = choose view.last view.atLineStart)
    (h : ∀ last start, Stacks pass newline n (choose last start)) :
    Stacks pass newline n (.observe next) := by
  intro last page hneat hsettled
  obtain ⟨page', hneat', hsettled', hlength, hlays⟩ :=
    h last page.current.isNone last page hneat hsettled
  refine ⟨page', hneat', hsettled', hlength, .observe fun view hoptions hlast hstart => ?_⟩
  rw [hnext view hoptions, hlast, hstart hsettled]
  exact hlays

/-! ### Pieces of rules -/

theorem lines {ls : List Line} (h : ∀ line ∈ ls, line.Neat) :
    Stacks pass newline n (.lines ls) := (Flows.lines h).stacks

theorem linesBefore {trivia : Trivia} (h : trivia.Neat) :
    Stacks pass newline n (.linesBefore trivia) := by
  refine .lines fun line hline => ?_
  cases hlines : trivia.linesBefore with
  | none => simp [hlines] at hline
  | some ls => exact h.linesBefore ls hlines line (by simpa [hlines] using hline)

theorem linesAfter (hn : newline.HasFeed) {trivia : Trivia} (h : trivia.Neat) :
    Stacks pass newline n (.linesAfter trivia) := by
  unfold Program.linesAfter
  cases hlines : trivia.linesAfter with
  | some ls => exact .lines (h.linesAfter ls hlines)
  | none =>
    refine .observe (fun last _ => if last then .done else .writeDefaultLine)
      (fun _ _ => rfl) fun last _ => ?_
    exact .ite (fun _ => .done) fun _ => .writeDefaultLine hn

theorem inlines {is : List Inline} (hrules : pass.rules = .standard)
    (hinterceptor : pass.interceptor = none) (h : ∀ i ∈ is, (Node.inline i).Neat n) :
    Stacks pass newline n (.inlines is) :=
  (Flows.inlines fun i hi => .inline hrules hinterceptor (h i hi)).stacks

theorem blocks {bs : List Block} (h : ∀ b ∈ bs, Stacks pass newline n (.render (.block b))) :
    Stacks pass newline n (.blocks bs) := by
  induction bs with
  | nil => exact .done
  | cons b rest ih => exact .seq (h b (.head _)).withLast (ih fun b hb => h b (.tail _ hb))

/-! ### Lists and quotes -/

theorem unbroken_toString (index : Nat) : Unbroken (toString index).toList := by
  intro c hc
  have digit : c.isDigit := by
    refine Nat.isDigit_of_mem_toDigits (b := 10) (n := index) (by decide) (by decide) ?_
    simpa using hc
  have lf : c ≠ '\n' := by rintro rfl; simp [Char.isDigit] at digit
  have cr : c ≠ '\r' := by rintro rfl; simp [Char.isDigit] at digit
  simp [isLineEnd, lf, cr]

theorem marker {style : ListStyle} (hbullet : isLineEnd style.bullet = false)
    (hdelimiter : isLineEnd style.delimiter = false) (index : Nat) :
    Stacks pass newline n (.marker style index) :=
  .seq
    (.ite (fun _ => .seq (.write (unbroken_toString index)) (.writeChar hdelimiter))
      fun _ => .writeChar hbullet)
    (.writeChar rfl)

theorem separator (hn : newline.HasFeed) (style : ListStyle) (isLast : Bool) :
    Stacks pass newline n (.separator style isLast) :=
  .ite (fun _ => .seq (.ensureLine hn) (.writeDefaultLine hn)) fun _ => .done

theorem plain_spaces (width : Nat) : (Indent.spaces width).Plain := by
  intro c hc
  have : c = ' ' := by simp at hc; exact hc.2
  rw [this]
  rfl

theorem items (hn : newline.HasFeed) {style : ListStyle} (hbullet : isLineEnd style.bullet = false)
    (hdelimiter : isLineEnd style.delimiter = false) {entries : List ListItem}
    (hitems : ∀ item ∈ entries, item.trivia.Neat ∧ Stacks pass newline n (.render (.item item)))
    (index : Nat) : Stacks pass newline n (.items style index entries) := by
  induction entries generalizing index with
  | nil => exact .done
  | cons item rest ih =>
    obtain ⟨trivia, body⟩ := hitems item (.head _)
    refine .all fun p hp => ?_
    simp only [List.mem_cons, List.not_mem_nil, or_false] at hp
    rcases hp with rfl | rfl | rfl | rfl | rfl | rfl
    · exact .ensureLine hn
    · exact .marker hbullet hdelimiter index
    · exact .indent (plain_spaces _) body
    · exact .withLast (.linesAfter hn trivia)
    · exact .separator hn style _
    · exact ih (fun item hi => hitems item (.tail _ hi)) _

theorem list (hn : newline.HasFeed) {style : ListStyle} (hbullet : isLineEnd style.bullet = false)
    (hdelimiter : isLineEnd style.delimiter = false) {entries : List ListItem}
    (hitems : ∀ item ∈ entries, item.trivia.Neat ∧ Stacks pass newline n (.render (.item item)))
    {trivia : Trivia} (htrivia : trivia.Neat) :
    Stacks pass newline n (.list style entries trivia) :=
  .seq (.ensureLine hn) <|
    .seq (.withCompact (.seq (.linesBefore htrivia) (.items hn hbullet hdelimiter hitems _))) <|
    .seq (.linesAfter hn htrivia) .done

theorem terminators {recorded : List QuoteLine} (h : ∀ line ∈ recorded, line.Neat) :
    Stacks pass newline n (.terminators recorded) := by
  induction recorded with
  | nil => exact .done
  | cons line rest ih =>
    exact .seq (.writeLine (h line (.head _)).newline) (ih fun line hl => h line (.tail _ hl))

theorem quoted {leads : List String} (h : ∀ lead ∈ leads, Unbroken lead.toList)
    (hp : Stacks pass newline n p) : Stacks pass newline n (.quoted leads p) := by
  have plain : (Indent.ofLeads leads).Plain := h
  refine .observe (fun _ start => if start then .indent (.ofLeads leads) p
    else .seq (.write (Indent.ofLeads leads).lead) (.indent (Indent.ofLeads leads).advance p))
    (fun _ _ => rfl) fun _ start => ?_
  exact .ite (fun _ => .indent plain hp) fun _ =>
    .seq (.write (plain.leadAt 0)) (.indent plain.advance hp)

theorem unbroken_lead {line : QuoteLine} (h : line.Neat) : Unbroken line.lead.toList := by
  have marker : Unbroken (if line.marker then ">" else "").toList := by split <;> decide
  have space : Unbroken (if line.spaceAfter then " " else "").toList := by split <;> decide
  simp only [QuoteLine.lead, String.toList_append]
  exact ((h.before.append marker).append space).append h.after

theorem quote (hn : newline.HasFeed) {recorded : List QuoteLine}
    (h : ∀ line ∈ recorded, line.Neat) {children : List Block}
    (hchildren : ∀ b ∈ children, Stacks pass newline n (.render (.block b))) {trivia : Trivia}
    (htrivia : trivia.Neat) : Stacks pass newline n (.quote recorded children trivia) := by
  have leads : ∀ lead ∈ recorded.map (·.lead), Unbroken lead.toList := by
    intro lead hlead
    obtain ⟨line, hline, rfl⟩ := List.mem_map.1 hlead
    exact unbroken_lead (h line hline)
  exact .seq (.linesBefore htrivia) <| .seq (.write htrivia.before) <|
    .seq (.quoted leads (.ite (fun _ => .terminators h) fun _ => .blocks hchildren)) <|
    .seq (.ite (fun _ => .done) fun _ => .linesAfter hn htrivia) .done

/-! ### Leaves -/

theorem heading (hn : newline.HasFeed) {content : List Inline}
    (hcontent : Stacks pass newline n (.inlines content)) {terminator : Newline}
    (hterminator : terminator.HasFeed) {trivia : Trivia} (htrivia : trivia.Neat) (level : Nat) :
    Stacks pass newline n (.heading level content terminator trivia) := by
  have marks : Unbroken (String.ofList (List.replicate level '#')).toList := by
    intro c hc
    have : c = '#' := by simp at hc; exact hc.2
    rw [this]
    rfl
  exact .seq (.linesBefore htrivia) <| .seq (.write marks) <| .seq (.writeChar rfl) <|
    .seq hcontent <| .seq (.writeLine hterminator) <| .seq (.linesAfter hn htrivia) .done

/-- The lines of a block of code in their span: with one line at least, the line that the span
begins is ended. -/
theorem codeLines {content : List Line} (hne : content ≠ []) (h : ∀ line ∈ content, line.Neat)
    (style : SpanStyle) : Stacks pass newline n (.span style (.lines content)) := by
  obtain ⟨line, rest, rfl⟩ := List.exists_cons_of_ne_nil hne
  refine ((Flows.lines h).span style fun hempty => ?_).stacks
  have terminator := (h line (.head _)).newline.text_isEmpty
  simp [Line.written] at hempty
  simp [hempty.1.2] at terminator

theorem codeBlock (hn : newline.HasFeed) {content : List Line} (hne : content ≠ [])
    (h : ∀ line ∈ content, line.Neat) {fence : Option Fence} (hfence : ∀ f ∈ fence, f.Neat)
    {trivia : Trivia} (htrivia : trivia.Neat) :
    Stacks pass newline n (.codeBlock content fence trivia) := by
  set kept := fence.filter fun _ => pass.options.keepCodeFences with hkept
  have neat : ∀ f ∈ kept, f.Neat := fun f hf => hfence f (Option.filter_eq_some_iff.1 hf).1
  refine .observe (fun _ _ => .all [.linesBefore trivia, .write trivia.before,
    .lines (kept.toList.map (·.opening)),
    .span { kind := .pre, language := fence.bind (·.language?) } (.lines content),
    .lines (kept.bind (·.closing)).toList, .write trivia.after, .linesAfter trivia])
    (fun view hoptions => by rw [hoptions]) fun _ _ => ?_
  have opening : ∀ line ∈ kept.toList.map (·.opening), line.Neat := by
    intro line hline
    obtain ⟨f, hf, rfl⟩ := List.mem_map.1 hline
    exact (neat f (Option.mem_toList.1 hf)).opening
  have closing : ∀ line ∈ (kept.bind (·.closing)).toList, line.Neat := by
    intro line hline
    obtain ⟨f, hf, hclosing⟩ := Option.bind_eq_some_iff.1 (Option.mem_toList.1 hline)
    exact (neat f hf).closing line hclosing
  exact .seq (.linesBefore htrivia) <| .seq (.write htrivia.before) <| .seq (.lines opening) <|
    .seq (.codeLines hne h _) <| .seq (.lines closing) <| .seq (.write htrivia.after) <|
    .seq (.linesAfter hn htrivia) .done

theorem htmlLines {content : List Line} (h : ∀ line ∈ content, line.Neat) :
    Stacks pass newline n (.htmlLines content) := by
  induction content with
  | nil => exact .done
  | cons line rest ih =>
    obtain ⟨text, terminator⟩ := h line (.head _)
    have recorded : ¬line.newline.isAbsent := by
      simpa [Newline.isAbsent] using terminator.ne_absent
    refine .seq (.write text) (.seq (.ite (fun habsent => absurd habsent recorded) fun _ => ?_) ?_)
    · exact .writeLine terminator
    · exact .seq (ih fun line hl => h line (.tail _ hl)) .done

theorem titleCloser_of_not_lineEnd {c : Char} (h : isLineEnd c = false) :
    isLineEnd (titleCloser c) = false := by
  unfold titleCloser
  split
  · rfl
  · exact h

theorem title {d : LinkDefinition} (h : d.Neat) : Stacks pass newline n (.title d) := by
  unfold Program.title
  cases htitle : d.title with
  | none => exact .done
  | some text =>
    exact .seq (.writeChar h.titleDelimiter) <| .seq (.write (h.title text htitle)) <|
      .seq (.writeChar (titleCloser_of_not_lineEnd h.titleDelimiter)) .done

theorem address {d : LinkDefinition} (h : d.Neat) : Stacks pass newline n (.address d) :=
  .ite (fun _ => .seq (.writeChar rfl) (.seq (.write h.url) (.seq (.writeChar rfl) .done)))
    fun _ => .write h.url

theorem linkDefinition (hn : newline.HasFeed) {d : LinkDefinition} (h : d.Neat) :
    Stacks pass newline n (.linkDefinition d) :=
  .seq (.linesBefore h.trivia) <| .seq (.write h.trivia.before) <| .seq (.writeChar rfl) <|
    .seq (.write h.label) <| .seq (.write (by decide)) <| .seq (.write h.beforeUrl) <|
    .seq (.address h) <| .seq (.write h.beforeTitle) <| .seq (.title h) <|
    .seq (.write h.trivia.after) <| .seq (.writeLine h.newline) <|
    .seq (.linesAfter hn h.trivia) .done

/-! ### Nodes -/

/-- Every neat node can be rendered from a settled page. -/
theorem node (hrules : pass.rules = .standard) (hinterceptor : pass.interceptor = none)
    (hn : newline.HasFeed) {node : Node} (h : node.Neat n) :
    Stacks pass newline n (.render node) := by
  induction n generalizing node with
  | zero => cases h
  | succ n ih =>
    obtain ⟨own, parts⟩ := h
    have blocks {bs : List Block} (hparts : ∀ b ∈ bs, .block b ∈ node.parts) :
        ∀ b ∈ bs, Stacks pass newline n (.render (.block b)) :=
      fun b hb => ih (parts _ (hparts b hb))
    have inlines {is : List Inline} (hparts : ∀ i ∈ is, .inline i ∈ node.parts) :
        Stacks pass newline n (.inlines is) :=
      .inlines hrules hinterceptor fun i hi => parts _ (hparts i hi)
    refine .render hrules (Node.customName?_of_ownNeat own) ?_
    cases node with
    | document d => exact .blocks (blocks fun b hb => List.mem_map_of_mem hb)
    | item i => exact .seq (.linesBefore own) (.blocks (blocks fun b hb => List.mem_map_of_mem hb))
    | inline i =>
      exact (Flows.inlineProgram hinterceptor own fun j hj =>
        .inline hrules hinterceptor (parts _ hj)).stacks
    | block b =>
      cases b with
      | paragraph is trivia =>
        exact .seq (.linesBefore own) <| .seq (.write own.before) <|
          .seq (inlines fun i hi => List.mem_map_of_mem hi) <| .seq (.linesAfter hn own) .done
      | heading level is terminator trivia =>
        exact .heading hn (inlines fun i hi => List.mem_map_of_mem hi) own.1 own.2 level
      | codeBlock lines fence trivia => exact .codeBlock hn own.1 own.2.1 own.2.2.1 own.2.2.2
      | list style entries trivia =>
        refine .list hn own.1 own.2.1 (fun item hitem => ?_) own.2.2
        have neat := parts (.item item) (List.mem_map_of_mem hitem)
        exact ⟨neat.own, ih neat⟩
      | quote lines children trivia =>
        exact .quote hn own.1 (blocks fun b hb => List.mem_map_of_mem hb) own.2
      | thematicBreak content terminator trivia =>
        exact .seq (.linesBefore own.2.2) <| .seq (.write own.1) <| .seq (.writeLine own.2.1) <|
          .seq (.linesAfter hn own.2.2) .done
      | htmlBlock lines trivia =>
        exact .seq (.linesBefore own.2) <| .seq (.htmlLines own.1) <|
          .seq (.linesAfter hn own.2) .done
      | linkDefinition d => exact .linkDefinition hn own
      | linkDefinitionGroup definitions trivia =>
        refine .seq (.blocks (blocks fun b hb => ?_)) (.linesAfter hn own)
        obtain ⟨d, hd, rfl⟩ := List.mem_map.1 hb
        exact List.mem_map_of_mem hd
      | emptyBlock trivia => exact .linesAfter hn own
      | custom => exact own.elim

end Stacks

end Program

namespace Pass

/-- **Rendering under line leads is rendering without, with the leads before the lines.** What
blocks append under any open containers is what they append under none, with the leads of the
containers before each of its lines: before the first line those that come next, before every
further line those after. -/
theorem text_blocks_indented {pass : Pass} (hrules : pass.rules = .standard)
    (hinterceptor : pass.interceptor = none) {bs : List Block} {n : Nat}
    (h : ∀ b ∈ bs, (Node.block b).Neat n) {c c' : Context} (hlast : c'.last = c.last)
    (hfeed : c.buffer.newline.HasFeed) (hnewline : c'.buffer.newline = c.buffer.newline)
    (hstart : c.buffer.atLineStart = true) (hstart' : c'.buffer.atLineStart = true)
    (hnone : c.buffer.indents = []) {levels levels' : Nat} (hlevels : n ≤ levels)
    (hlevels' : n ≤ levels') (hdepth : c.depth + n ≤ pass.options.maxDepth)
    (hdepth' : c'.depth + n ≤ pass.options.maxDepth) :
    ∃ (d d' : Context) (text text' : String),
      (Program.blocks bs).run pass (pass.render levels) c = d.ok ∧
      (Program.blocks bs).run pass (pass.render levels') c' = d'.ok ∧
      d.buffer.text = c.buffer.text ++ text ∧ d'.buffer.text = c'.buffer.text ++ text' ∧
      text' = String.join ((Line.split text).mapIdx fun i line =>
        String.join (c'.buffer.indents.map (·.leadAt i)) ++ line.written) := by
  have shows {e : Context} (hstart : e.buffer.atLineStart = true) :
      e.buffer.Shows e.buffer.newline e.buffer.text e.buffer.indents {} :=
    ⟨by simp [Page.text], by simp [Page.used], by simpa using hstart, rfl⟩
  obtain ⟨page, hneat, hsettled, -, hlays⟩ :=
    Program.Stacks.blocks (fun b hb => .node hrules hinterceptor hfeed (h b hb)) c.last {}
      Page.neat_empty Page.settled_empty
  obtain ⟨d, hrun, -, -, hd⟩ := hlays levels _ _ c hlevels hdepth rfl (shows hstart)
  obtain ⟨d', hrun', -, -, hd'⟩ :=
    hlays levels' _ _ c' hlevels' hdepth' hlast (hnewline ▸ shows hstart')
  have text : d.buffer.text = c.buffer.text ++ page.text fun _ => "" := by
    rw [hd.text, hnone]
    rfl
  refine ⟨d, d', _, _, hrun, hrun', text, hd'.text, ?_⟩
  rw [Page.split_text hneat hsettled, Page.text_eq_join]
  rfl

/-- A quote of two lines. -/
def twoQuoted : List Block :=
  [.quote [.marked .lf, .marked .lf]
    [.paragraph [.literal "a", .lineBreak .lf false, .emphasis '*' 1 [.literal "b"],
      .lineBreak .lf false] {}] {}]

theorem twoQuoted_neat : ∀ b ∈ twoQuoted, (Node.block b).Neat 4 := by
  have trivia : ({} : Trivia).Neat := ⟨nofun, nofun, by decide, by decide⟩
  have marked : (QuoteLine.marked .lf).Neat := ⟨by decide, by decide, by decide⟩
  have literal (n : Nat) {text : String} (h : Unbroken text.toList) :
      (Node.inline (.literal text)).Neat (n + 1) := .intro h nofun
  have lineBreak : (Node.inline (.lineBreak .lf false)).Neat 2 := .intro (.inl rfl) nofun
  have emphasis : (Node.inline (.emphasis '*' 1 [.literal "b"])).Neat 2 :=
    .intro (fun _ => by decide) (by simpa [Node.parts] using @literal 0 "b" (by decide))
  simp only [twoQuoted, List.mem_singleton, forall_eq]
  refine .intro ⟨by simpa using marked, trivia⟩ ?_
  simp only [Node.parts, List.map_cons, List.map_nil, List.mem_singleton, forall_eq]
  refine .intro trivia ?_
  simpa [Node.parts] using ⟨literal 1 (by decide), lineBreak, emphasis, lineBreak⟩

/-- A quote with two lines, in an item and without it. -/
theorem text_blocks_indented_quote :
    let start : Context := .start {}
    let item : Context := start.mapBuffer (·.pushIndent (.perLine ["1. ", "   "] 0))
    ∃ (d d' : Context) (text text' : String),
      (Program.blocks twoQuoted).run { rules := .standard } (Pass.render { rules := .standard } 4)
        start = d.ok ∧
      (Program.blocks twoQuoted).run { rules := .standard } (Pass.render { rules := .standard } 4)
        item = d'.ok ∧
      d.buffer.text = start.buffer.text ++ text ∧ d'.buffer.text = item.buffer.text ++ text' ∧
      text' = String.join ((Line.split text).mapIdx fun i line =>
        String.join (item.buffer.indents.map (·.leadAt i)) ++ line.written) := by
  intro start item
  have hstart : start.buffer.atLineStart = true := by decide
  have hstart' : item.buffer.atLineStart = true := by decide
  have hdepth : start.depth + 4 ≤ 128 := by decide
  have hdepth' : item.depth + 4 ≤ 128 := by decide
  exact @text_blocks_indented { rules := .standard } rfl rfl twoQuoted 4 twoQuoted_neat start item
    rfl (.inl rfl) rfl hstart hstart' rfl 4 4 (Nat.le_refl 4) (Nat.le_refl 4) hdepth hdepth'

end Pass

end MarkdownSpans
