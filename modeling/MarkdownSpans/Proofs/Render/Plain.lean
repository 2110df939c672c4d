import MarkdownSpans.Proofs.Render.Dispatch

/-!
# Programs that only write

`Program.Plain p` says that `p` writes and has nodes rendered, and nothing else: it opens no span
and no container, does not fail by itself, and looks neither at offsets nor at the unit they are
counted in. All the helpers of the standard rules are plain but those that put leads before
lines.
-/

namespace MarkdownSpans

/-- The view without what depends on the unit of the pass. -/
def View.unmeasured (v : View) : View :=
  { v with options := { v.options with unit := .utf16 }, length := 0 }

namespace Program

/-- The program writes, ends lines and has nodes rendered, and goes by nothing that depends on the
unit of the pass. -/
def Plain : Program → Prop
  | seq first second => first.Plain ∧ second.Plain
  | withCompact _ body | withLast _ body => body.Plain
  | observe next => ∀ view, (next view).Plain ∧ next view.unmeasured = next view
  | done | write _ | writeChar _ | writeLine _ | writeDefaultLine | ensureLine | render _ => True
  | fail _ | span .. | indent .. | setCompact _ | setLast _ | intercept .. | consult _ | attempt ..
  | note _ => False

namespace Plain

theorem lines (ls : List Line) : (Program.lines ls).Plain := by
  induction ls with
  | nil => trivial
  | cons line rest ih => exact ⟨trivial, trivial, ih⟩

theorem linesBefore (trivia : Trivia) : (Program.linesBefore trivia).Plain := lines _

theorem linesAfter (trivia : Trivia) : (Program.linesAfter trivia).Plain := by
  unfold Program.linesAfter
  split
  · exact lines _
  · refine fun view => ⟨?_, rfl⟩
    show (if view.last then Program.done else writeDefaultLine).Plain
    split <;> trivial

theorem inlines (is : List Inline) : (Program.inlines is).Plain := by
  induction is with
  | nil => trivial
  | cons i rest ih => exact ⟨trivial, ih⟩

theorem blocks (bs : List Block) : (Program.blocks bs).Plain := by
  induction bs with
  | nil => trivial
  | cons b rest ih => exact ⟨trivial, ih⟩

theorem marker (style : ListStyle) (index : Nat) : (Program.marker style index).Plain := by
  refine ⟨?_, trivial⟩
  split
  · exact ⟨trivial, trivial⟩
  · trivial

theorem separator (style : ListStyle) (isLast : Bool) : (Program.separator style isLast).Plain := by
  unfold Program.separator
  split
  · exact ⟨trivial, trivial⟩
  · trivial

theorem terminators (recorded : List QuoteLine) : (Program.terminators recorded).Plain := by
  induction recorded with
  | nil => trivial
  | cons line rest ih => exact ⟨trivial, ih⟩

theorem heading (level : Nat) (content : List Inline) (newline : Newline) (trivia : Trivia) :
    (Program.heading level content newline trivia).Plain :=
  ⟨linesBefore trivia, trivial, trivial, inlines content, trivial, linesAfter trivia, trivial⟩

theorem htmlLines (content : List Line) : (Program.htmlLines content).Plain := by
  induction content with
  | nil => trivial
  | cons line rest ih =>
    refine ⟨trivial, ?_, ih, trivial⟩
    split <;> trivial

theorem title (d : LinkDefinition) : (Program.title d).Plain := by
  unfold Program.title
  split
  · exact ⟨trivial, trivial, trivial, trivial⟩
  · trivial

theorem address (d : LinkDefinition) : (Program.address d).Plain := by
  unfold Program.address
  split
  · exact ⟨trivial, trivial, trivial, trivial⟩
  · trivial

theorem linkDefinition (d : LinkDefinition) : (Program.linkDefinition d).Plain :=
  ⟨linesBefore d.trivia, trivial, trivial, trivial, trivial, trivial, address d, trivial, title d,
    trivial, trivial, linesAfter d.trivia, trivial⟩

end Plain

end Program

end MarkdownSpans
