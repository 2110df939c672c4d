import MarkdownSpans.Proofs.Document.Marks

/-!
# Documents with other delimiters of emphasis

`document.Restyled kept document'` says that the second document is the first one where some of the
emphasis has a delimiter without a style instead. The list `kept` has an entry for each styled node
of the first document, in document order: whether the node still has its style in the second. The
marks of the second document are just those with the entry `true` (`Document.Restyled.marks`).
-/

namespace MarkdownSpans

/-- The second list is the first one without the elements whose entry is `false`. -/
structure Thinned {α : Type} (kept : List Bool) (xs ys : List α) : Prop where
  length : xs.length = kept.length
  eq : ys = ((xs.zip kept).filter (·.2)).map (·.1)

namespace Thinned

variable {α β : Type} {kept kept' : List Bool} {xs xs' ys ys' : List α} {x : α}

theorem nil : Thinned (α := α) [] [] [] := ⟨rfl, rfl⟩

theorem keep (h : Thinned kept xs ys) : Thinned (true :: kept) (x :: xs) (x :: ys) :=
  ⟨congrArg Nat.succ h.length, congrArg (List.cons x) h.eq⟩

theorem drop (h : Thinned kept xs ys) : Thinned (false :: kept) (x :: xs) ys :=
  ⟨congrArg Nat.succ h.length, h.eq⟩

theorem append (h : Thinned kept xs ys) (h' : Thinned kept' xs' ys') :
    Thinned (kept ++ kept') (xs ++ xs') (ys ++ ys') := by
  refine ⟨?_, ?_⟩
  · rw [List.length_append, List.length_append, h.length, h'.length]
  · rw [List.zip_append h.length, List.filter_append, List.map_append, ← h.eq, ← h'.eq]

theorem map (f : α → β) (h : Thinned kept xs ys) : Thinned kept (xs.map f) (ys.map f) := by
  refine ⟨(List.length_map f).trans h.length, ?_⟩
  rw [h.eq, List.zip_map_left, List.filter_map, List.map_map, List.map_map]
  rfl

/-- Nothing is left out where no entry is `false`. -/
theorem all (h : xs.length = kept.length) (hkept : ∀ b ∈ kept, b = true) :
    Thinned kept xs xs := by
  induction xs generalizing kept with
  | nil =>
    obtain rfl := List.length_eq_zero_iff.1 h.symm
    exact nil
  | cons x xs ih =>
    obtain ⟨b, kept, rfl⟩ := List.exists_cons_of_length_eq_add_one h.symm
    obtain rfl := hkept b (.head _)
    exact (ih (Nat.succ.inj h) fun b hb => hkept b (.tail _ hb)).keep

end Thinned

/-- The elements of two lists are related in turn, and their entries are joined. -/
inductive Each {α : Type} (R : α → List Bool → α → Prop) : List α → List Bool → List α → Prop where
  | nil : Each R [] [] []
  | cons {x y : α} {xs ys : List α} {kept kept' : List Bool} (first : R x kept y)
    (rest : Each R xs kept' ys) : Each R (x :: xs) (kept ++ kept') (y :: ys)

/-- The second inline is the first one where some emphasis that has a text has a delimiter without a
style instead. There is an entry for each styled inline: whether it has a style still. What stands
in inlines of extensions has none. -/
inductive Inline.Restyled : Inline → List Bool → Inline → Prop where
  | same (i : Inline) : Restyled i (i.marks.map fun _ => true) i
  | emphasis {children children' : List Inline} {kept : List Bool} (mark : Char) (count : Nat)
    (h : Each Restyled children kept children') :
    Restyled (.emphasis mark count children)
      ((emphasisStyle? mark).toList.map (fun _ => true) ++ kept) (.emphasis mark count children')
  | unstyled {children children' : List Inline} {kept : List Bool} (mark : Char) {mark' : Char}
    (count : Nat) (plain : emphasisStyle? mark' = none) (text : listText children ≠ "")
    (h : Each Restyled children kept children') :
    Restyled (.emphasis mark count children)
      ((emphasisStyle? mark).toList.map (fun _ => false) ++ kept) (.emphasis mark' count children')
  | link {children children' : List Inline} {kept : List Bool} (url : String)
    (title : Option String) (isImage : Bool) (h : Each Restyled children kept children') :
    Restyled (.link url title isImage children) (true :: kept) (.link url title isImage children')
  | delimiter {children children' : List Inline} {kept : List Bool} (text : String)
    (h : Each Restyled children kept children') :
    Restyled (.delimiter text children) kept (.delimiter text children')
  | custom {children children' : List Inline} {kept : List Bool} (kind content : String)
    (h : Each Restyled children kept children') :
    Restyled (.custom kind content children) [] (.custom kind content children')

mutual

/-- The second block is the first one with other delimiters of emphasis. -/
inductive Block.Restyled : Block → List Bool → Block → Prop where
  | same (b : Block) : Block.Restyled b (b.marks.map fun _ => true) b
  | paragraph {content content' : List Inline} {kept : List Bool} (trivia : Trivia)
    (h : Each Inline.Restyled content kept content') :
    Block.Restyled (.paragraph content trivia) kept (.paragraph content' trivia)
  | heading {content content' : List Inline} {kept : List Bool} (level : Nat) (newline : Newline)
    (trivia : Trivia) (h : Each Inline.Restyled content kept content') :
    Block.Restyled (.heading level content newline trivia) kept
      (.heading level content' newline trivia)
  | list {entries entries' : List ListItem} {kept : List Bool} (style : ListStyle) (trivia : Trivia)
    (h : Each ListItem.Restyled entries kept entries') :
    Block.Restyled (.list style entries trivia) kept (.list style entries' trivia)
  | quote {children children' : List Block} {kept : List Bool} (recorded : List QuoteLine)
    (trivia : Trivia) (h : Each Block.Restyled children kept children') :
    Block.Restyled (.quote recorded children trivia) kept (.quote recorded children' trivia)
  | custom {children children' : List Block} {content content' : List Inline}
    {kept kept' : List Bool} (kind : String) (lines : List Line) (trivia : Trivia)
    (h : Each Block.Restyled children kept children')
    (hcontent : Each Inline.Restyled content kept' content') :
    Block.Restyled (.custom kind children content lines trivia) []
      (.custom kind children' content' lines trivia)

/-- The second item is the first one with other delimiters of emphasis. -/
inductive ListItem.Restyled : ListItem → List Bool → ListItem → Prop where
  | mk {children children' : List Block} {kept : List Bool} (trivia : Trivia)
    (h : Each Block.Restyled children kept children') :
    ListItem.Restyled (.mk children trivia) kept (.mk children' trivia)

end

/-- The second document is the first one with other delimiters of emphasis. -/
def Document.Restyled (d : Document) (kept : List Bool) (d' : Document) : Prop :=
  Each Block.Restyled d.blocks kept d'.blocks

/-- The second node is the first one with other delimiters of emphasis. -/
inductive Node.Restyled : Node → List Bool → Node → Prop where
  | document {d d' : Document} {kept : List Bool} (h : d.Restyled kept d') :
    Restyled (.document d) kept (.document d')
  | block {b b' : Block} {kept : List Bool} (h : b.Restyled kept b') :
    Restyled (.block b) kept (.block b')
  | item {i i' : ListItem} {kept : List Bool} (h : i.Restyled kept i') :
    Restyled (.item i) kept (.item i')
  | inline {i i' : Inline} {kept : List Bool} (h : i.Restyled kept i') :
    Restyled (.inline i) kept (.inline i')

theorem Each.isEmpty_eq {α : Type} {R : α → List Bool → α → Prop} {xs ys : List α}
    {kept : List Bool} (h : Each R xs kept ys) : ys.isEmpty = xs.isEmpty := by
  cases h <;> rfl

theorem ListItem.Restyled.trivia {i i' : ListItem} {kept : List Bool} (h : i.Restyled kept i') :
    i'.trivia = i.trivia := by
  cases h
  rfl

theorem Node.Restyled.customName? {node node' : Node} {kept : List Bool}
    (h : node.Restyled kept node') : node'.customName? = node.customName? := by
  cases h with
  | document | item => rfl
  | block h => cases h <;> rfl
  | inline h => cases h <;> rfl

/-! ### The text stays -/

mutual

theorem Inline.Restyled.text {i i' : Inline} {kept : List Bool} (h : i.Restyled kept i') :
    i'.text = i.text := by
  match h with
  | .same _ => rfl
  | .emphasis _ _ h | .unstyled _ _ _ _ h | .link _ _ _ h =>
    rw [Inline.text, Inline.text, h.listText]
  | .delimiter _ h => rw [Inline.text, Inline.text, h.listText]
  | .custom _ _ _ => rfl

theorem Each.listText {is is' : List Inline} {kept : List Bool}
    (h : Each Inline.Restyled is kept is') : Inline.listText is' = Inline.listText is := by
  match h with
  | .nil => rfl
  | .cons first rest => rw [Inline.listText, Inline.listText, first.text, rest.listText]

end

/-! ### The marks that stay -/

mutual

theorem Inline.Restyled.marks {i i' : Inline} {kept : List Bool} (h : i.Restyled kept i') :
    Thinned kept i.marks i'.marks := by
  match h with
  | .same _ => exact .all (by simp) (by simp)
  | .emphasis mark _ h =>
    rw [Inline.marks_emphasis, Inline.marks_emphasis, h.listText]
    exact (Thinned.all (by simp) (by simp)).append h.listMarks
  | .unstyled mark _ plain _ h =>
    rw [Inline.marks_emphasis, Inline.marks_emphasis, h.listText, plain]
    refine Thinned.append ?_ h.listMarks
    cases emphasisStyle? mark with
    | none => exact .nil
    | some kind => exact .drop .nil
  | .link url _ _ h =>
    rw [Inline.marks, Inline.marks, Inline.ownMarks, Inline.ownMarks, Inline.text, Inline.text,
      h.listText]
    exact h.listMarks.keep
  | .delimiter _ h =>
    rw [Inline.marks, Inline.marks]
    exact h.listMarks
  | .custom _ _ _ => exact .nil

theorem Each.listMarks {is is' : List Inline} {kept : List Bool}
    (h : Each Inline.Restyled is kept is') :
    Thinned kept (Inline.listMarks is) (Inline.listMarks is') := by
  match h with
  | .nil => exact .nil
  | .cons first rest =>
    rw [Inline.listMarks, Inline.listMarks]
    exact first.marks.append rest.listMarks

end

mutual

theorem Block.Restyled.marks {b b' : Block} {kept : List Bool} (h : b.Restyled kept b') :
    Thinned kept b.marks b'.marks := by
  match h with
  | .same _ => exact .all (by simp) (by simp)
  | .paragraph _ h | .heading _ _ _ h =>
    rw [Block.marks, Block.marks]
    exact h.listMarks
  | .list _ _ h =>
    rw [Block.marks, Block.marks]
    exact h.itemsMarks.map _
  | .quote _ _ h =>
    rw [Block.marks, Block.marks]
    exact h.blockMarks.map _
  | .custom _ _ _ _ _ => exact .nil

theorem Each.itemsMarks {entries entries' : List ListItem} {kept : List Bool}
    (h : Each ListItem.Restyled entries kept entries') :
    Thinned kept (Block.itemsMarks entries) (Block.itemsMarks entries') := by
  match h with
  | .nil => exact .nil
  | .cons (.mk _ first) rest =>
    rw [Block.itemsMarks, Block.itemsMarks]
    exact first.blockMarks.append rest.itemsMarks

theorem Each.blockMarks {bs bs' : List Block} {kept : List Bool}
    (h : Each Block.Restyled bs kept bs') :
    Thinned kept (Block.listMarks bs) (Block.listMarks bs') := by
  match h with
  | .nil => exact .nil
  | .cons first rest =>
    rw [Block.listMarks, Block.listMarks]
    exact first.marks.append rest.blockMarks

end

/-- The styled nodes of a document with other delimiters of emphasis are those that stay styled. -/
theorem Document.Restyled.marks {d d' : Document} {kept : List Bool} (h : d.Restyled kept d') :
    Thinned kept d.marks d'.marks :=
  h.blockMarks

namespace Node.Restyled

variable {node node' : Node} {kept : List Bool}

theorem marks (h : node.Restyled kept node') : Thinned kept node.marks node'.marks := by
  cases h with
  | document h => exact h.marks
  | block h => exact h.marks
  | item h =>
    cases h with
    | mk trivia h => exact h.blockMarks
  | inline h => exact h.marks

/-- There are no entries for a node of an extension. -/
theorem kept_of_custom (h : node.Restyled kept node') (hname : node.customName? ≠ none) :
    kept = [] := by
  have length := h.marks.length
  rw [Node.marks_of_custom hname] at length
  exact List.length_eq_zero_iff.1 length.symm

end Node.Restyled

end MarkdownSpans
