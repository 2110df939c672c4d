import MarkdownSpans.Proofs.Render.Neat

/-!
# Rendering under line leads

What standard rules write does not depend on the containers around it: `Program.Lays` says that a
program leads from a buffer that shows one page to a buffer that shows another, whatever the outer
leads are. Inlines may go on from a line that is begun and still empty (`Program.Flows`), blocks and
items start from settled pages (`Program.Stacks`). So rendering blocks under line leads is rendering
them without, and putting the leads before the lines (`Pass.text_blocks_indented`).
-/

namespace MarkdownSpans

namespace Program

variable {pass : Pass} {newline : Newline} {n : Nat} {p q : Program} {last : Bool}
  {page page' page'' : Page}

/-- From a context that shows a page, the program leads to one that shows another page, whatever the
outer containers are and if there is room for `n` nested nodes. -/
def Lays (pass : Pass) (newline : Newline) (n : Nat) (p : Program) (last : Bool)
    (page page' : Page) : Prop :=
  ∀ levels base outer c, n ≤ levels → c.depth + n ≤ pass.options.maxDepth → c.last = last →
    c.buffer.Shows newline base outer page →
    ∃ d : Context, p.run pass (pass.render levels) c = d.ok ∧ d.depth = c.depth ∧ d.last = last ∧
      d.buffer.Shows newline base outer page'

namespace Lays

theorem done : Lays pass newline n .done last page page :=
  fun _ _ _ c _ _ hlast h => ⟨c, rfl, rfl, hlast, h⟩

/-- A program that only changes the buffer. -/
theorem of_mapBuffer {f : Buffer → Buffer}
    (hrun : ∀ renderNode c, p.run pass renderNode c = (c.mapBuffer f).ok)
    (h : ∀ base outer b, b.Shows newline base outer page → (f b).Shows newline base outer page') :
    Lays pass newline n p last page page' :=
  fun _ base outer c _ _ hlast hc =>
    ⟨c.mapBuffer f, hrun _ c, rfl, hlast, h base outer c.buffer hc⟩

theorem write (text : String) :
    Lays pass newline n (.write text) last page (page.write text) :=
  of_mapBuffer (fun _ _ => rfl) fun _ _ _ h => h.write text

theorem writeChar (c : Char) :
    Lays pass newline n (.writeChar c) last page (page.write (String.singleton c)) :=
  of_mapBuffer (fun _ _ => rfl) fun _ _ _ h => h.writeChar c

theorem writeLine {terminator : Newline} (h : terminator.HasFeed) :
    Lays pass newline n (.writeLine terminator) last page (page.writeLine terminator) :=
  of_mapBuffer (fun _ _ => rfl) fun _ _ _ hb => hb.writeLine h

theorem writeDefaultLine (h : newline.HasFeed) :
    Lays pass newline n .writeDefaultLine last page (page.writeLine newline) :=
  of_mapBuffer (fun _ _ => rfl) fun base outer b hb => by
    rw [Buffer.writeDefaultLine, hb.newline]
    exact hb.writeLine h

theorem ensureLine (h : newline.HasFeed) (hsettled : page.Settled) :
    Lays pass newline n .ensureLine last page (page.ensureLine newline) :=
  of_mapBuffer (fun _ _ => rfl) fun _ _ _ hb => hb.ensureLine hsettled h

theorem seq (hp : Lays pass newline n p last page page')
    (hq : Lays pass newline n q last page' page'') :
    Lays pass newline n (.seq p q) last page page'' := by
  intro levels base outer c hlevels hdepth hlast h
  obtain ⟨d, hrun, hdepth', hlast', hd⟩ := hp levels base outer c hlevels hdepth hlast h
  obtain ⟨e, hrun', hdepth'', hlast'', he⟩ :=
    hq levels base outer d hlevels (by omega) hlast' hd
  refine ⟨e, ?_, by omega, hlast'', he⟩
  rw [run, hrun]
  exact hrun'

theorem span (style : SpanStyle) (hp : Lays pass newline n p last page.begin page') :
    Lays pass newline n (.span style p) last page page' := by
  intro levels base outer c hlevels hdepth hlast h
  obtain ⟨d, hrun, hdepth', hlast', hd⟩ :=
    hp levels base outer (c.openSpan style) hlevels hdepth hlast h.flushIndent
  exact ⟨d.closeSpan c.spans.size, by rw [run, hrun]; rfl, hdepth', hlast', hd⟩

theorem indent {i : Indent} (hsettled : page.Settled)
    (hp : Lays pass newline n p last (page.pushIndent i) page') (hsettled' : page'.Settled)
    (hinner : page'.inner ≠ []) :
    Lays pass newline n (.indent i p) last page page'.popIndent := by
  intro levels base outer c hlevels hdepth hlast h
  obtain ⟨d, hrun, hdepth', hlast', hd⟩ :=
    hp levels base outer (c.mapBuffer (·.pushIndent i)) hlevels hdepth hlast
      (h.pushIndent hsettled i)
  exact ⟨d.mapBuffer (·.popIndent), by rw [run, hrun]; rfl, hdepth', hlast',
    hd.popIndent hsettled' hinner⟩

theorem withCompact {value : Bool} (hp : Lays pass newline n p last page page') :
    Lays pass newline n (.withCompact value p) last page page' := by
  intro levels base outer c hlevels hdepth hlast h
  obtain ⟨d, hrun, hdepth', hlast', hd⟩ :=
    hp levels base outer { c with compact := value } hlevels hdepth hlast h
  exact ⟨{ d with compact := c.compact }, by rw [run, hrun]; rfl, hdepth', hlast', hd⟩

theorem withLast {value : Bool} (hp : Lays pass newline n p value page page') :
    Lays pass newline n (.withLast value p) last page page' := by
  intro levels base outer c hlevels hdepth hlast h
  obtain ⟨d, hrun, hdepth', -, hd⟩ :=
    hp levels base outer { c with last := value } hlevels hdepth rfl h
  exact ⟨{ d with last := c.last }, by rw [run, hrun]; rfl, hdepth', hlast, hd⟩

/-- A tag is written as it is if nothing intercepts it. -/
theorem intercept {tag : String} {next : Bool → Program} (hinterceptor : pass.interceptor = none)
    (hp : Lays pass newline n (next false) last page page') :
    Lays pass newline n (.intercept tag next) last page page' := by
  intro levels base outer c hlevels hdepth hlast h
  have answer : pass.handles c tag = false := by rw [Pass.handles, hinterceptor]; rfl
  obtain ⟨d, hrun, hdepth', hlast', hd⟩ :=
    hp levels base outer (c.offer tag false) hlevels hdepth hlast h
  exact ⟨d, by rw [run, answer]; exact hrun, hdepth', hlast', hd⟩

/-- A look at the pass tells the options, whether the block is the last and, on a settled page,
whether a line goes on. -/
theorem observe {next : View → Program}
    (hp : ∀ view, view.options = pass.options → view.last = last →
      (page.Settled → view.atLineStart = page.current.isNone) →
      Lays pass newline n (next view) last page page') :
    Lays pass newline n (.observe next) last page page' := by
  intro levels base outer c hlevels hdepth hlast h
  refine hp (c.view pass.options) rfl hlast (fun hsettled => ?_) levels base outer c hlevels hdepth
    hlast h
  have settled : (page.current == some "") = false := by simpa [Page.Settled] using hsettled
  show c.buffer.atLineStart = _
  rw [h.atLineStart, settled, Bool.and_false, Bool.or_false]

/-- A node is rendered by its standard rule, one level deeper. -/
theorem render {node : Node} (hrules : pass.rules = .standard) (hname : node.customName? = none)
    (hp : Lays pass newline n node.program last page page') :
    Lays pass newline (n + 1) (.render node) last page page' := by
  intro levels base outer c hlevels hdepth hlast h
  obtain ⟨k, rfl⟩ := Nat.exists_eq_add_of_le' hlevels
  obtain ⟨d, hrun, hdepth', hlast', hd⟩ :=
    hp (k + n) base outer c.enterNode (by omega)
      (by show c.depth + 1 + n ≤ _; omega) hlast h
  refine ⟨d.leaveNode, ?_, ?_, hlast', hd⟩
  · show pass.render (k + n + 1) node c = _
    rw [Pass.render_standard hrules hname (by omega), hrun]
    rfl
  · show d.depth - 1 = c.depth
    rw [hdepth']
    rfl

end Lays

/-! ### Inlines -/

/-- From every neat page the program leads to a neat page; if it has any text, the page is settled
even if a line was just begun. -/
def Flows (pass : Pass) (newline : Newline) (n : Nat) (p : Program) (text : String) : Prop :=
  ∀ (last : Bool) (page : Page), page.Neat →
    ∃ page' : Page, page'.Neat ∧ page'.inner.length = page.inner.length ∧
      (page.Settled ∨ text ≠ "" → page'.Settled) ∧ Lays pass newline n p last page page'

namespace Flows

variable {text text' : String}

theorem done : Flows pass newline n .done "" := fun _ page hneat =>
  ⟨page, hneat, rfl, fun h => h.resolve_right (· rfl), .done⟩

theorem write (h : Unbroken text.toList) : Flows pass newline n (.write text) text :=
  fun _ page hneat =>
    ⟨page.write text, hneat.write h, page.length_inner_write text, Page.settled_write, .write text⟩

theorem writeChar {c : Char} (h : isLineEnd c = false) :
    Flows pass newline n (.writeChar c) (String.singleton c) := by
  intro _ page hneat
  have unbroken : Unbroken (String.singleton c).toList := by simpa [Unbroken] using h
  exact ⟨page.write (String.singleton c), hneat.write unbroken, page.length_inner_write _,
    Page.settled_write, .writeChar c⟩

theorem writeLine {terminator : Newline} (h : terminator.HasFeed) (text : String) :
    Flows pass newline n (.writeLine terminator) text := fun _ page hneat =>
  ⟨page.writeLine terminator, hneat.writeLine h, page.length_inner_writeLine terminator,
    fun _ => Page.settled_finish terminator, .writeLine h⟩

theorem seq (hp : Flows pass newline n p text) (hq : Flows pass newline n q text') :
    Flows pass newline n (.seq p q) (text ++ text') := by
  intro last page hneat
  obtain ⟨page₁, hneat₁, hlength₁, hsettled₁, hlays₁⟩ := hp last page hneat
  obtain ⟨page₂, hneat₂, hlength₂, hsettled₂, hlays₂⟩ := hq last page₁ hneat₁
  refine ⟨page₂, hneat₂, hlength₂.trans hlength₁, fun h => hsettled₂ ?_, hlays₁.seq hlays₂⟩
  -- If the second program writes nothing, the first one settles the page.
  by_cases hempty : text' = ""
  · exact .inl (hsettled₁ (by simpa [hempty] using h))
  · exact .inr hempty

/-- Some text in a span settles the line that the span begins. -/
theorem span (style : SpanStyle) (hp : Flows pass newline n p text) (hne : text ≠ "") :
    Flows pass newline n (.span style p) text := by
  intro last page hneat
  obtain ⟨page', hneat', hlength, hsettled, hlays⟩ := hp last page.begin hneat.begin
  exact ⟨page', hneat', hlength.trans page.length_inner_begin, fun _ => hsettled (.inr hne),
    hlays.span style⟩

theorem intercept {tag : String} {next : Bool → Program} (hinterceptor : pass.interceptor = none)
    (hp : Flows pass newline n (next false) text) :
    Flows pass newline n (.intercept tag next) text := by
  intro last page hneat
  obtain ⟨page', hneat', hlength, hsettled, hlays⟩ := hp last page hneat
  exact ⟨page', hneat', hlength, hsettled, hlays.intercept hinterceptor⟩

theorem render {node : Node} (hrules : pass.rules = .standard) (hname : node.customName? = none)
    (hp : Flows pass newline n node.program text) :
    Flows pass newline (n + 1) (.render node) text := by
  intro last page hneat
  obtain ⟨page', hneat', hlength, hsettled, hlays⟩ := hp last page hneat
  exact ⟨page', hneat', hlength, hsettled, hlays.render hrules hname⟩

theorem lines {ls : List Line} (h : ∀ line ∈ ls, line.Neat) :
    Flows pass newline n (.lines ls) (String.join (ls.map Line.written)) := by
  induction ls with
  | nil => exact .done
  | cons line rest ih =>
    obtain ⟨text, terminator⟩ := h line (.head _)
    have first : Flows pass newline n (.lines (line :: rest))
        (line.text ++ (line.newline.text ++ String.join (rest.map Line.written))) :=
      .seq (.write text) (.seq (.writeLine terminator _) (ih fun line hl => h line (.tail _ hl)))
    rwa [← String.append_assoc, ← Line.written, ← String.join_cons, ← List.map_cons] at first

theorem inlines {is : List Inline}
    (h : ∀ i ∈ is, Flows pass newline n (.render (.inline i)) i.text) :
    Flows pass newline n (.inlines is) (Inline.listText is) := by
  induction is with
  | nil => exact .done
  | cons i rest ih => exact (h i (.head _)).seq (ih fun i hi => h i (.tail _ hi))

/-- The standard rule of a neat inline, if its children can be rendered. -/
theorem inlineProgram (hinterceptor : pass.interceptor = none) {i : Inline} (own : i.OwnNeat)
    (h : ∀ j, .inline j ∈ (Node.inline i).parts →
      Flows pass newline n (.render (.inline j)) j.text) :
    Flows pass newline n i.program i.text := by
  cases i with
  | literal content => exact .write own
  | emphasis mark count is =>
    have children := inlines fun j hj => h j (List.mem_map_of_mem hj)
    rw [Inline.program]
    cases hstyle : emphasisStyle? mark with
    | none => exact children
    | some kind => exact children.span _ (own (by simp [hstyle]))
  | codeSpan content => exact .span _ (.write own.1) own.2
  | autolink url isEmail => exact .span _ (.write own.1) own.2
  | link url title isImage is =>
    exact .span _ (.inlines fun j hj => h j (List.mem_map_of_mem hj)) own
  | lineBreak terminator hard => exact .writeLine own _
  | htmlInline tag => exact .intercept hinterceptor (.write own)
  | htmlEntity spelling decoded => exact .write own
  | delimiter text is =>
    exact .seq (.write own) (.inlines fun j hj => h j (List.mem_map_of_mem hj))
  | custom => exact own.elim

/-- Neat inlines can be rendered anywhere in a line. -/
theorem inline (hrules : pass.rules = .standard) (hinterceptor : pass.interceptor = none)
    {i : Inline} (h : (Node.inline i).Neat n) :
    Flows pass newline n (.render (.inline i)) i.text := by
  induction n generalizing i with
  | zero => cases h
  | succ n ih =>
    obtain ⟨own, parts⟩ := h
    exact .render hrules (Node.customName?_of_ownNeat own)
      (.inlineProgram hinterceptor own fun j hj => ih (parts _ hj))

end Flows

end Program

end MarkdownSpans
