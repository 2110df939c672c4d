import MarkdownSpans.Proofs.Render.Neat

/-!
# The styled nodes of a document

`Document.marks` lists the nodes of a document that have a style, a node before those inside it,
each with its style and its text. What stands inside nodes of extensions is left out.
-/

namespace MarkdownSpans

/-- A node that has a style. -/
structure Mark where
  style : SpanStyle
  /-- The text of the node. -/
  text : String
  /-- Whether the node lies under a list or a quote, whose leads may stand between its lines. -/
  held : Bool := false
  deriving DecidableEq, Repr

/-- The mark of the same node under a list or a quote. -/
def Mark.hold (m : Mark) : Mark := { m with held := true }

namespace Inline

/-- The style of an inline. -/
def style? : Inline → Option SpanStyle
  | emphasis '*' _ _ => some { kind := .bold }
  | emphasis '_' _ _ => some { kind := .italic }
  | emphasis '~' _ _ => some { kind := .strikethrough }
  | codeSpan _ => some { kind := .code }
  | autolink url true => some { kind := .url, url := some ("mailto:" ++ url) }
  | autolink url false => some { kind := .url, url := some url }
  | link url _ _ _ => some { kind := .url, url := some url }
  | _ => none

theorem style?_emphasis (mark : Char) (count : Nat) (children : List Inline) :
    (emphasis mark count children).style? = (emphasisStyle? mark).map fun kind => { kind } := by
  unfold style? emphasisStyle?
  split <;> simp_all

/-- The mark of the inline itself, if it has a style. -/
def ownMarks (i : Inline) : List Mark := i.style?.toList.map fun style => { style, text := i.text }

mutual

/-- The styled inlines in an inline, with itself. -/
def marks : Inline → List Mark
  | i@(emphasis _ _ children) | i@(link _ _ _ children) | i@(delimiter _ children) =>
    i.ownMarks ++ listMarks children
  | i => i.ownMarks

/-- The styled inlines in inlines one after another. -/
def listMarks : List Inline → List Mark
  | [] => []
  | i :: rest => i.marks ++ listMarks rest

end

/-- The marks of emphasis come before those inside it. -/
theorem marks_emphasis (mark : Char) (count : Nat) (children : List Inline) :
    (emphasis mark count children).marks =
      ((emphasisStyle? mark).toList.map fun kind => ⟨{ kind }, listText children, false⟩) ++
        listMarks children := by
  rw [marks, ownMarks, style?_emphasis, text]
  cases emphasisStyle? mark <;> rfl

end Inline

namespace Block

mutual

/-- The styled nodes in a block, with itself. -/
def marks : Block → List Mark
  | paragraph inlines _ | heading _ inlines _ _ => Inline.listMarks inlines
  | codeBlock lines fence _ =>
    [{ style := { kind := .pre, language := fence.bind fun f => firstWord? f.info },
       text := String.join (lines.map Line.written) }]
  | list _ items _ => (itemsMarks items).map .hold
  | quote _ children _ => (listMarks children).map .hold
  | thematicBreak .. | htmlBlock .. | linkDefinition _ | linkDefinitionGroup .. | emptyBlock _
  | custom .. => []

/-- The styled nodes in blocks one after another. -/
def listMarks : List Block → List Mark
  | [] => []
  | b :: rest => b.marks ++ listMarks rest

/-- The styled nodes in items one after another. -/
def itemsMarks : List ListItem → List Mark
  | [] => []
  | .mk children _ :: rest => listMarks children ++ itemsMarks rest

end

end Block

/-- There is no styled node in link definitions. -/
theorem Block.listMarks_linkDefinitions (definitions : List LinkDefinition) :
    listMarks (definitions.map .linkDefinition) = [] := by
  induction definitions with
  | nil => rw [List.map_nil, listMarks]
  | cons d rest ih => rw [List.map_cons, listMarks, ih, marks, List.append_nil]

/-- The styled nodes of a document, a node before those inside it. -/
def Document.marks (document : Document) : List Mark := Block.listMarks document.blocks

/-- The styled nodes in a node, with itself. -/
def Node.marks : Node → List Mark
  | document d => d.marks
  | block b => b.marks
  | item i => Block.listMarks i.children
  | inline i => i.marks

/-- A node of an extension has no marks. -/
theorem Node.marks_of_custom {node : Node} (h : node.customName? ≠ none) : node.marks = [] := by
  cases node with
  | document | item => exact absurd rfl h
  | block b => cases b <;> first | rfl | exact absurd rfl h
  | inline i => cases i <;> first | rfl | exact absurd rfl h

/-! ### The marks of parts -/

theorem Node.flatMap_inline (is : List Inline) :
    (is.map Node.inline).flatMap Node.marks = Inline.listMarks is := by
  induction is with
  | nil => rw [Inline.listMarks]; rfl
  | cons i rest ih => rw [List.map_cons, List.flatMap_cons, ih, Inline.listMarks]; rfl

theorem Node.flatMap_block (bs : List Block) :
    (bs.map Node.block).flatMap Node.marks = Block.listMarks bs := by
  induction bs with
  | nil => rw [Block.listMarks]; rfl
  | cons b rest ih => rw [List.map_cons, List.flatMap_cons, ih, Block.listMarks]; rfl

end MarkdownSpans
