import MarkdownSpans.Document.Node

/-!
# The raw tags of a document

`Document.tags` lists the raw inline tags of a document in document order; what stands inside nodes
of extensions is left out. `Document.answered` replaces those of them that are answered with `true` by
empty literals; `choices` pairs tags with their answers.
-/

namespace MarkdownSpans

/-- Tags with their answers, in order; past the end of the answers they are `false`. -/
def choices : List String → List Bool → List (String × Bool)
  | [], _ => []
  | tag :: rest, answers => (tag, answers.headD false) :: choices rest answers.tail

theorem choices_append (s t : List String) (answers : List Bool) :
    choices (s ++ t) answers = choices s answers ++ choices t (answers.drop s.length) := by
  induction s generalizing answers with
  | nil => rfl
  | cons tag rest ih =>
    rw [List.cons_append, choices, ih, choices, List.cons_append, List.length_cons,
      ← List.drop_tail]

theorem map_fst_choices (tags : List String) (answers : List Bool) :
    (choices tags answers).map (·.1) = tags := by
  induction tags generalizing answers with
  | nil => rfl
  | cons tag rest ih => rw [choices, List.map_cons, ih]

/-- Tags at the beginning of a list with their answers are the beginning of the list with these
answers. -/
theorem prefix_choices {told : List (String × Bool)} {tags : List String}
    (h : told.map (·.1) <+: tags) : told <+: choices tags (told.map (·.2)) := by
  induction told generalizing tags with
  | nil => exact List.nil_prefix
  | cons offer rest ih =>
    obtain ⟨tag, answer⟩ := offer
    cases tags with
    | nil => simp at h
    | cons first more =>
      obtain ⟨rfl, hrest⟩ := List.cons_prefix_cons.1 h
      exact List.cons_prefix_cons.2 ⟨rfl, ih hrest⟩

namespace Inline

mutual

/-- The raw tags in an inline, with itself. -/
def tags : Inline → List String
  | emphasis _ _ children | link _ _ _ children | delimiter _ children => listTags children
  | htmlInline tag => [tag]
  | _ => []

/-- The raw tags in inlines one after another. -/
def listTags : List Inline → List String
  | [] => []
  | i :: rest => i.tags ++ listTags rest

end

mutual

/-- An inline whose tags are answered in order: those with the answer `true` are empty literals. -/
def answered : Inline → List Bool → Inline
  | emphasis mark count children, answers => emphasis mark count (listAnswered children answers)
  | link url title isImage children, answers =>
    link url title isImage (listAnswered children answers)
  | delimiter text children, answers => delimiter text (listAnswered children answers)
  | htmlInline tag, answers => if answers.headD false then literal "" else htmlInline tag
  | i, _ => i

/-- Inlines one after another whose tags are answered in order. -/
def listAnswered : List Inline → List Bool → List Inline
  | [], _ => []
  | i :: rest, answers => i.answered answers :: listAnswered rest (answers.drop i.tags.length)

end

end Inline

namespace Block

mutual

/-- The raw tags in a block. -/
def tags : Block → List String
  | paragraph inlines _ | heading _ inlines _ _ => Inline.listTags inlines
  | list _ items _ => itemsTags items
  | quote _ children _ => listTags children
  | _ => []

/-- The raw tags in blocks one after another. -/
def listTags : List Block → List String
  | [] => []
  | b :: rest => b.tags ++ listTags rest

/-- The raw tags in items one after another. -/
def itemsTags : List ListItem → List String
  | [] => []
  | .mk children _ :: rest => listTags children ++ itemsTags rest

end

mutual

/-- A block whose tags are answered in order. -/
def answered : Block → List Bool → Block
  | paragraph inlines trivia, answers => paragraph (Inline.listAnswered inlines answers) trivia
  | heading level inlines newline trivia, answers =>
    heading level (Inline.listAnswered inlines answers) newline trivia
  | list style items trivia, answers => list style (itemsAnswered items answers) trivia
  | quote lines children trivia, answers => quote lines (listAnswered children answers) trivia
  | b, _ => b

/-- Blocks one after another whose tags are answered in order. -/
def listAnswered : List Block → List Bool → List Block
  | [], _ => []
  | b :: rest, answers => b.answered answers :: listAnswered rest (answers.drop b.tags.length)

/-- Items one after another whose tags are answered in order. -/
def itemsAnswered : List ListItem → List Bool → List ListItem
  | [], _ => []
  | .mk children trivia :: rest, answers =>
    .mk (listAnswered children answers) trivia ::
      itemsAnswered rest (answers.drop (listTags children).length)

end

end Block

/-- There is no tag in link definitions. -/
theorem Block.listTags_linkDefinitions (definitions : List LinkDefinition) :
    listTags (definitions.map .linkDefinition) = [] := by
  induction definitions with
  | nil => rw [List.map_nil, listTags]
  | cons d rest ih => simp [listTags, tags, ih]

theorem Block.listAnswered_linkDefinitions (definitions : List LinkDefinition)
    (answers : List Bool) :
    listAnswered (definitions.map .linkDefinition) answers = definitions.map .linkDefinition := by
  induction definitions generalizing answers with
  | nil => rw [List.map_nil, listAnswered]
  | cons d rest ih => simp [listAnswered, answered, ih]

namespace Document

/-- The raw inline tags of a document, in document order. -/
def tags (document : Document) : List String := Block.listTags document.blocks

/-- The document with its tags answered in order: those with the answer `true` are replaced by empty
literals. -/
def answered (document : Document) (answers : List Bool) : Document :=
  ⟨Block.listAnswered document.blocks answers⟩

end Document

namespace Node

/-- The raw tag of a node, if it is one. -/
def tag? : Node → Option String
  | inline (.htmlInline tag) => some tag
  | _ => none

theorem eq_of_tag? {node : Node} {tag : String} (h : node.tag? = some tag) :
    node = inline (.htmlInline tag) := by
  unfold tag? at h
  split at h
  · rw [Option.some.inj h]
  · cases h

/-- The raw tags in a node, with itself. -/
def tags : Node → List String
  | document d => d.tags
  | block b => b.tags
  | item i => Block.listTags i.children
  | inline i => i.tags

/-- A node whose tags are answered in order. -/
def answered (answers : List Bool) : Node → Node
  | document d => document (d.answered answers)
  | block b => block (b.answered answers)
  | item i => item ⟨Block.listAnswered i.children answers, i.trivia⟩
  | inline i => inline (i.answered answers)

/-- A node belongs to an extension if and only if it does once its tags are answered. -/
theorem customName?_answered (answers : List Bool) (node : Node) :
    (node.answered answers).customName? = node.customName? := by
  cases node with
  | document | item => rfl
  | block b => cases b <;> rfl
  | inline i =>
    cases i with
    | htmlInline tag =>
      simp only [answered, Inline.answered]
      split <;> rfl
    | _ => rfl

/-- In a node of an extension no tag counts. -/
theorem answered_of_custom {node : Node} (h : node.customName?.isSome) (answers : List Bool) :
    node.tags = [] ∧ node.answered answers = node := by
  cases node with
  | document | item => cases h
  | block b =>
    cases b with
    | custom => exact ⟨rfl, rfl⟩
    | _ => cases h
  | inline i =>
    cases i with
    | custom => exact ⟨rfl, rfl⟩
    | _ => cases h

end Node

end MarkdownSpans
