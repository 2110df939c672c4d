import MarkdownSpans.Document.Node

/-!
# Documents without the nodes of extensions

`Document.builtIn` leaves the blocks and the inlines of extensions out, each with all below it, at
every level. `Document.Settled` says of a document that leaving them out does not change what a rule
goes by: lines after a block were recorded, so that it does not matter which block is the last of
its container, and no quote loses all its blocks.
-/

namespace MarkdownSpans

namespace Inline

/-- Whether the inline belongs to an extension. -/
def isCustom : Inline → Bool
  | custom .. => true
  | _ => false

mutual

/-- An inline without the inlines of extensions in it. -/
def builtIn : Inline → Inline
  | emphasis mark count children => emphasis mark count (listBuiltIn children)
  | link url title isImage children => link url title isImage (listBuiltIn children)
  | delimiter text children => delimiter text (listBuiltIn children)
  | i => i

/-- Inlines without those of extensions. -/
def listBuiltIn : List Inline → List Inline
  | [] => []
  | i :: rest => if i.isCustom then listBuiltIn rest else i.builtIn :: listBuiltIn rest

end

end Inline

namespace Block

/-- Whether the block belongs to an extension. -/
def isCustom : Block → Bool
  | custom .. => true
  | _ => false

mutual

/-- A block without the blocks and the inlines of extensions in it. -/
def builtIn : Block → Block
  | paragraph inlines trivia => paragraph (Inline.listBuiltIn inlines) trivia
  | heading level inlines newline trivia =>
    heading level (Inline.listBuiltIn inlines) newline trivia
  | list style items trivia => list style (itemsBuiltIn items) trivia
  | quote lines children trivia => quote lines (listBuiltIn children) trivia
  | b => b

/-- Blocks without those of extensions. -/
def listBuiltIn : List Block → List Block
  | [] => []
  | b :: rest => if b.isCustom then listBuiltIn rest else b.builtIn :: listBuiltIn rest

/-- Items without the blocks and the inlines of extensions in them. -/
def itemsBuiltIn : List ListItem → List ListItem
  | [] => []
  | .mk children trivia :: rest => .mk (listBuiltIn children) trivia :: itemsBuiltIn rest

end

mutual

/-- Unless it belongs to an extension, the block has recorded lines after it, and so have those in
it; if it is a quote with blocks, one of them is left. -/
def Settled : Block → Prop
  | custom .. => True
  | list _ items trivia => trivia.linesAfter.isSome ∧ ItemsSettled items
  | quote _ children trivia =>
    trivia.linesAfter.isSome ∧ ((∀ b ∈ children, b.isCustom) → children = []) ∧
      ListSettled children
  | b => b.trivia.linesAfter.isSome

/-- The same of blocks one after another. -/
def ListSettled : List Block → Prop
  | [] => True
  | b :: rest => b.Settled ∧ ListSettled rest

/-- The same of the blocks of items one after another. -/
def ItemsSettled : List ListItem → Prop
  | [] => True
  | .mk children _ :: rest => ListSettled children ∧ ItemsSettled rest

end

end Block

namespace Document

/-- The document without the blocks and the inlines of extensions. -/
def builtIn (document : Document) : Document := ⟨Block.listBuiltIn document.blocks⟩

/-- Each block that is left has recorded lines after it, and a quote with blocks keeps one. -/
def Settled (document : Document) : Prop := Block.ListSettled document.blocks

end Document

namespace Node

/-- A node without the blocks and the inlines of extensions in it. -/
def builtIn : Node → Node
  | document d => document d.builtIn
  | block b => block b.builtIn
  | item i => item ⟨Block.listBuiltIn i.children, i.trivia⟩
  | inline i => inline i.builtIn

/-- What is left of the node does not go by what is left out. -/
def Settled : Node → Prop
  | document d => d.Settled
  | block b => b.Settled
  | item i => Block.ListSettled i.children
  | inline _ => True

theorem builtIn_kind {node : Node} (h : node.customName? = none) :
    node.builtIn.kind = node.kind ∧ node.builtIn.customName? = none := by
  cases node with
  | document | item => exact ⟨rfl, rfl⟩
  | block b =>
    cases b with
    | custom => cases h
    | _ => exact ⟨rfl, rfl⟩
  | inline i =>
    cases i with
    | custom => cases h
    | _ => exact ⟨rfl, rfl⟩

end Node

/-- Some block is left if not all of them belong to extensions. -/
theorem Block.isCustom_of_listBuiltIn {bs : List Block} (h : listBuiltIn bs = []) :
    ∀ b ∈ bs, b.isCustom := by
  induction bs with
  | nil => simp
  | cons b rest ih =>
    rw [listBuiltIn] at h
    split at h
    case isTrue hcustom => exact List.forall_mem_cons.2 ⟨hcustom, ih h⟩
    case isFalse => cases h

end MarkdownSpans
