import Mathlib.Data.List.Chain
import MarkdownSpans.Document.Basic

/-!
# The lists of inlines in a document

`Document.inlineLists` gathers the lists of inlines of a document: those of its paragraphs and
headings, wherever they stand, and those of the inlines in them, at any depth. In a list of inlines
that are joined no literal stands next to another (`Inline.Apart`), and a node is joined when all
the lists in it are.
-/

namespace MarkdownSpans

namespace Inline

/-- Whether an inline is plain text. -/
def isLiteral : Inline → Bool
  | literal _ => true
  | _ => false

mutual

/-- The lists of inlines in an inline. -/
def inlineLists : Inline → List (List Inline)
  | emphasis _ _ children | link _ _ _ children | delimiter _ children | custom _ _ children =>
    children :: innerLists children
  | literal _ | codeSpan _ | autolink _ _ | lineBreak _ _ | htmlInline _ | htmlEntity _ _ => []

/-- The lists of inlines in inlines one after another. -/
def innerLists : List Inline → List (List Inline)
  | [] => []
  | i :: rest => i.inlineLists ++ innerLists rest

end

/-- No two inlines next to each other are literals. -/
def Apart (inlines : List Inline) : Prop :=
  inlines.IsChain fun i j => ¬(i.isLiteral = true ∧ j.isLiteral = true)

instance (inlines : List Inline) : Decidable (Apart inlines) :=
  inferInstanceAs (Decidable (List.IsChain _ inlines))

/-- No two literals stand next to each other in an inline. -/
def Joined (i : Inline) : Prop := ∀ inlines ∈ i.inlineLists, Apart inlines

/-- No two literals stand next to each other in a list of inlines, or in any of them. -/
structure ListJoined (inlines : List Inline) : Prop where
  apart : Apart inlines
  joined : ∀ i ∈ inlines, i.Joined

theorem mem_innerLists {inlines list : List Inline} :
    list ∈ innerLists inlines ↔ ∃ i ∈ inlines, list ∈ i.inlineLists := by
  induction inlines with
  | nil => simp [innerLists]
  | cons i rest ih => rw [innerLists, List.mem_append, ih, List.exists_mem_cons_iff]

theorem listJoined_iff {inlines : List Inline} :
    ListJoined inlines ↔ ∀ list ∈ inlines :: innerLists inlines, Apart list := by
  rw [List.forall_mem_cons]
  constructor
  · rintro ⟨hapart, hjoined⟩
    refine ⟨hapart, fun list hlist => ?_⟩
    obtain ⟨i, hi, hmem⟩ := mem_innerLists.1 hlist
    exact hjoined i hi list hmem
  · rintro ⟨hapart, hinner⟩
    exact ⟨hapart, fun i hi list hlist => hinner list (mem_innerLists.2 ⟨i, hi, hlist⟩)⟩

/-- An inline that no inlines stand in. -/
theorem joined_of_inlineLists {i : Inline} (h : i.inlineLists = []) : i.Joined := by
  intro list hlist
  rw [h] at hlist
  cases hlist

theorem listJoined_nil : ListJoined [] := ⟨.nil, List.forall_mem_nil _⟩

theorem ListJoined.reverse {inlines : List Inline} (h : ListJoined inlines) :
    ListJoined inlines.reverse := by
  constructor
  · rw [Apart, List.isChain_reverse]
    exact h.apart.imp fun i j hij hji => hij hji.symm
  · intro i hi
    exact h.joined i (List.mem_reverse.1 hi)

end Inline

namespace Block

mutual

/-- The lists of inlines in a block. -/
def inlineLists : Block → List (List Inline)
  | paragraph inlines _ | heading _ inlines _ _ => inlines :: Inline.innerLists inlines
  | list _ items _ => itemsInlineLists items
  | quote _ children _ => listInlineLists children
  | custom _ children inlines _ _ =>
    inlines :: Inline.innerLists inlines ++ listInlineLists children
  | codeBlock .. | thematicBreak .. | htmlBlock .. | linkDefinition _ | linkDefinitionGroup ..
  | emptyBlock _ => []

/-- The lists of inlines in blocks one after another. -/
def listInlineLists : List Block → List (List Inline)
  | [] => []
  | b :: rest => b.inlineLists ++ listInlineLists rest

/-- The lists of inlines in items one after another. -/
def itemsInlineLists : List ListItem → List (List Inline)
  | [] => []
  | .mk children _ :: rest => listInlineLists children ++ itemsInlineLists rest

end

/-- No two literals stand next to each other in a block. -/
def Joined (b : Block) : Prop := ∀ inlines ∈ b.inlineLists, Inline.Apart inlines

theorem mem_listInlineLists {blocks : List Block} {list : List Inline} :
    list ∈ listInlineLists blocks ↔ ∃ b ∈ blocks, list ∈ b.inlineLists := by
  induction blocks with
  | nil => simp [listInlineLists]
  | cons b rest ih => rw [listInlineLists, List.mem_append, ih, List.exists_mem_cons_iff]

theorem mem_itemsInlineLists {items : List ListItem} {list : List Inline} :
    list ∈ itemsInlineLists items ↔ ∃ item ∈ items, list ∈ listInlineLists item.children := by
  induction items with
  | nil => simp [itemsInlineLists]
  | cons item rest ih =>
    obtain ⟨children, trivia⟩ := item
    rw [itemsInlineLists, List.mem_append, ih, List.exists_mem_cons_iff]
    rfl

@[simp] theorem inlineLists_withTrivia (t : Trivia) (b : Block) :
    (b.withTrivia t).inlineLists = b.inlineLists := by
  cases b <;> simp only [withTrivia, inlineLists]

theorem Joined.withTrivia {b : Block} (h : b.Joined) (t : Trivia) : (b.withTrivia t).Joined := by
  rw [Joined, inlineLists_withTrivia]
  exact h

theorem joined_paragraph {inlines : List Inline} (h : Inline.ListJoined inlines)
    (trivia : Trivia) : (paragraph inlines trivia).Joined := by
  rw [Joined, inlineLists]
  exact Inline.listJoined_iff.1 h

theorem joined_heading {inlines : List Inline} (h : Inline.ListJoined inlines) (level : Nat)
    (newline : Newline) (trivia : Trivia) : (heading level inlines newline trivia).Joined := by
  rw [Joined, inlineLists]
  exact Inline.listJoined_iff.1 h

theorem joined_quote {children : List Block} (h : ∀ b ∈ children, b.Joined)
    (lines : List QuoteLine) (trivia : Trivia) : (quote lines children trivia).Joined := by
  intro list hlist
  rw [inlineLists, mem_listInlineLists] at hlist
  obtain ⟨b, hb, hmem⟩ := hlist
  exact h b hb list hmem

theorem joined_list {items : List ListItem} (h : ∀ item ∈ items, ∀ b ∈ item.children, b.Joined)
    (style : ListStyle) (trivia : Trivia) : (list style items trivia).Joined := by
  intro inlines hlist
  rw [inlineLists, mem_itemsInlineLists] at hlist
  obtain ⟨item, hitem, hmem⟩ := hlist
  obtain ⟨b, hb, hmem⟩ := mem_listInlineLists.1 hmem
  exact h item hitem b hb inlines hmem

end Block

/-- The lists of inlines in a document. -/
def Document.inlineLists (document : Document) : List (List Inline) :=
  Block.listInlineLists document.blocks

end MarkdownSpans
