import MarkdownSpans.Tree.Builder

/-!
# The link definitions of a document

`Document.groups` lists the groups of link definitions of a document in document order, each with the
definitions in it. Trivia make no difference to them.
-/

namespace MarkdownSpans

namespace Block

mutual

/-- The groups of link definitions in a block, in document order. -/
def groups : Block → List (List LinkDefinition)
  | linkDefinitionGroup definitions _ => [definitions]
  | list _ items _ => itemsGroups items
  | quote _ children _ => listGroups children
  | custom _ children _ _ _ => listGroups children
  | paragraph .. | heading .. | codeBlock .. | thematicBreak .. | htmlBlock .. | linkDefinition _
  | emptyBlock _ => []

/-- The groups of link definitions in blocks one after another. -/
def listGroups : List Block → List (List LinkDefinition)
  | [] => []
  | b :: rest => b.groups ++ listGroups rest

/-- The groups of link definitions in items one after another. -/
def itemsGroups : List ListItem → List (List LinkDefinition)
  | [] => []
  | .mk children _ :: rest => listGroups children ++ itemsGroups rest

end

@[simp] theorem listGroups_append (a b : List Block) :
    listGroups (a ++ b) = listGroups a ++ listGroups b := by
  induction a with
  | nil => rfl
  | cons block rest ih => rw [List.cons_append, listGroups, listGroups, ih, List.append_assoc]

@[simp] theorem itemsGroups_append (a b : List ListItem) :
    itemsGroups (a ++ b) = itemsGroups a ++ itemsGroups b := by
  induction a with
  | nil => rfl
  | cons item rest ih =>
    obtain ⟨children, trivia⟩ := item
    rw [List.cons_append, itemsGroups, itemsGroups, ih, List.append_assoc]

@[simp] theorem groups_withTrivia (t : Trivia) (b : Block) : (b.withTrivia t).groups = b.groups := by
  cases b <;> simp only [withTrivia, groups]

end Block

/-- The groups of link definitions in a document, in document order. -/
def Document.groups (document : Document) : List (List LinkDefinition) :=
  Block.listGroups document.blocks

/-- Lines after the last of some blocks, which comes first, do not change their groups. -/
theorem Builder.listGroups_setLinesAfter (lines : List Line) (reversed : List Block) :
    Block.listGroups (setLinesAfter lines reversed).reverse = Block.listGroups reversed.reverse := by
  cases reversed with
  | nil => rfl
  | cons last rest => simp [setLinesAfter, Block.listGroups]

end MarkdownSpans
