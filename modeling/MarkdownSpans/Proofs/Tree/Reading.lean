import MarkdownSpans.Proofs.Tree.Moves

/-!
# What building never changes

The source and the options of a builder stay as they are, whatever events it is fed and in whatever
order (`Builder.reading_run`).
-/

namespace MarkdownSpans

namespace Builder

/-- What a builder reads: the source, in a way the options tell. -/
def reading (b : Builder) : List Char × BuildOptions := (b.source, b.options)

variable {b b' : Builder} {range : ByteRange}

@[simp] theorem reading_pushBlock (block : Block) : (b.pushBlock block).reading = b.reading := by
  unfold pushBlock
  split <;> rfl

@[simp] theorem reading_markLoose : b.markLoose.reading = b.reading := by
  unfold markLoose
  split <;> rfl

/-- Nothing that a builder does changes the source or the options. -/
theorem Move.reading (h : b.Move b') : b'.reading = b.reading := by
  cases h with
  | markLoose => exact reading_markLoose
  | pushBlock | endParagraph | endHeading | endQuote | endList => exact reading_pushBlock _
  | note | openLeaf | mapLeaf | dropLeaf | pushContainer | dropContainer | endItem => rfl

theorem reading_of_moves (h : Moves b b') : b'.reading = b.reading := by
  induction h with
  | refl => rfl
  | tail _ hmove ih => exact hmove.reading.trans ih

theorem reading_beginLeaf {kind : LeafKind} {start : Nat} (h : b.beginLeaf kind start = some b') :
    b'.reading = b.reading :=
  reading_of_moves (moves_beginLeaf h)

theorem reading_ensureLeaf (h : b.ensureLeaf range = some b') : b'.reading = b.reading :=
  reading_of_moves (moves_ensureLeaf h)

theorem reading_enter {tag : Tag} (h : b.enter tag range = some b') : b'.reading = b.reading :=
  reading_of_moves (moves_enter h)

theorem reading_leave {kind : TagKind} (h : b.leave kind range = some b') :
    b'.reading = b.reading :=
  reading_of_moves (moves_leave h)

theorem reading_step {e : RangedEvent} (h : b.step e = some b') : b'.reading = b.reading :=
  reading_of_moves (moves_step h)

/-- **No events change the source or the options of a builder.** -/
theorem reading_run {events : List RangedEvent} (h : b.run events = some b') :
    b'.reading = b.reading :=
  reading_of_moves (moves_run h)

end Builder

end MarkdownSpans
