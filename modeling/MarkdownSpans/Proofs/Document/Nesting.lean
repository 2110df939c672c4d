import MarkdownSpans.Document.Basic

/-!
# How deep a document is nested

`Inline.Within n` and `Block.Within m n` bound the containers around the leaves of a tree in which
no node is of an extension.
-/

namespace MarkdownSpans

/-- At most `n` inline containers stand around any part of an inline, and no part is of an
extension. -/
inductive Inline.Within : Nat → Inline → Prop where
  | literal {n : Nat} (content : String) : Within n (.literal content)
  | codeSpan {n : Nat} (content : String) : Within n (.codeSpan content)
  | autolink {n : Nat} (url : String) (isEmail : Bool) : Within n (.autolink url isEmail)
  | lineBreak {n : Nat} (newline : Newline) (hard : Bool) : Within n (.lineBreak newline hard)
  | htmlInline {n : Nat} (tag : String) : Within n (.htmlInline tag)
  | htmlEntity {n : Nat} (spelling decoded : String) : Within n (.htmlEntity spelling decoded)
  | emphasis {n : Nat} {children : List Inline} (mark : Char) (count : Nat)
    (h : ∀ i ∈ children, Within n i) : Within (n + 1) (.emphasis mark count children)
  | link {n : Nat} {children : List Inline} (url : String) (title : Option String) (isImage : Bool)
    (h : ∀ i ∈ children, Within n i) : Within (n + 1) (.link url title isImage children)
  | delimiter {n : Nat} {children : List Inline} (text : String)
    (h : ∀ i ∈ children, Within n i) : Within (n + 1) (.delimiter text children)

/-- At most `n` containers stand around any leaf of a block, where a list counts for two with its
items, at most `m` inline containers stand in a leaf, and no node is of an extension. -/
inductive Block.Within (m : Nat) : Nat → Block → Prop where
  | paragraph {n : Nat} {inlines : List Inline} (trivia : Trivia)
    (h : ∀ i ∈ inlines, i.Within m) : Within m n (.paragraph inlines trivia)
  | heading {n : Nat} {inlines : List Inline} (level : Nat) (newline : Newline) (trivia : Trivia)
    (h : ∀ i ∈ inlines, i.Within m) : Within m n (.heading level inlines newline trivia)
  | codeBlock {n : Nat} (lines : List Line) (fence : Option Fence) (trivia : Trivia) :
    Within m n (.codeBlock lines fence trivia)
  | thematicBreak {n : Nat} (content : String) (newline : Newline) (trivia : Trivia) :
    Within m n (.thematicBreak content newline trivia)
  | htmlBlock {n : Nat} (lines : List Line) (trivia : Trivia) : Within m n (.htmlBlock lines trivia)
  | linkDefinition {n : Nat} (definition : LinkDefinition) : Within m n (.linkDefinition definition)
  | linkDefinitionGroup {n : Nat} (definitions : List LinkDefinition) (trivia : Trivia) :
    Within m n (.linkDefinitionGroup definitions trivia)
  | emptyBlock {n : Nat} (trivia : Trivia) : Within m n (.emptyBlock trivia)
  | quote {n : Nat} {children : List Block} (lines : List QuoteLine) (trivia : Trivia)
    (h : ∀ b ∈ children, Within m n b) : Within m (n + 1) (.quote lines children trivia)
  | list {n : Nat} {items : List ListItem} (style : ListStyle) (trivia : Trivia)
    (h : ∀ item ∈ items, ∀ b ∈ item.children, Within m n b) :
    Within m (n + 2) (.list style items trivia)

namespace Inline.Within

theorem mono {n n' : Nat} {i : Inline} (h : i.Within n) (hle : n ≤ n') : i.Within n' := by
  induction h generalizing n' with
  | literal content => exact .literal content
  | codeSpan content => exact .codeSpan content
  | autolink url isEmail => exact .autolink url isEmail
  | lineBreak newline hard => exact .lineBreak newline hard
  | htmlInline tag => exact .htmlInline tag
  | htmlEntity spelling decoded => exact .htmlEntity spelling decoded
  | emphasis mark count _ ih =>
    obtain ⟨k, rfl⟩ := Nat.exists_eq_add_of_le' hle
    exact .emphasis mark count fun i hi => ih i hi (Nat.le_add_left _ k)
  | link url title isImage _ ih =>
    obtain ⟨k, rfl⟩ := Nat.exists_eq_add_of_le' hle
    exact .link url title isImage fun i hi => ih i hi (Nat.le_add_left _ k)
  | delimiter text _ ih =>
    obtain ⟨k, rfl⟩ := Nat.exists_eq_add_of_le' hle
    exact .delimiter text fun i hi => ih i hi (Nat.le_add_left _ k)

end Inline.Within

namespace Block.Within

variable {m n : Nat} {b : Block}

theorem mono {n' : Nat} (h : b.Within m n) (hle : n ≤ n') : b.Within m n' := by
  induction h generalizing n' with
  | paragraph trivia h => exact .paragraph trivia h
  | heading level newline trivia h => exact .heading level newline trivia h
  | codeBlock lines fence trivia => exact .codeBlock lines fence trivia
  | thematicBreak content newline trivia => exact .thematicBreak content newline trivia
  | htmlBlock lines trivia => exact .htmlBlock lines trivia
  | linkDefinition definition => exact .linkDefinition definition
  | linkDefinitionGroup definitions trivia => exact .linkDefinitionGroup definitions trivia
  | emptyBlock trivia => exact .emptyBlock trivia
  | quote lines trivia _ ih =>
    obtain ⟨k, rfl⟩ := Nat.exists_eq_add_of_le' hle
    exact .quote lines trivia fun b hb => ih b hb (Nat.le_add_left _ k)
  | list style trivia _ ih =>
    obtain ⟨k, rfl⟩ := Nat.exists_eq_add_of_le' hle
    exact .list style trivia fun item hi b hb => ih item hi b hb (Nat.le_add_left _ k)

theorem withTrivia (h : b.Within m n) (t : Trivia) : (b.withTrivia t).Within m n := by
  cases h with
  | paragraph _ h => exact .paragraph t h
  | heading level newline _ h => exact .heading level newline t h
  | codeBlock lines fence _ => exact .codeBlock lines fence t
  | thematicBreak content newline _ => exact .thematicBreak content newline t
  | htmlBlock lines _ => exact .htmlBlock lines t
  | linkDefinition definition => exact .linkDefinition _
  | linkDefinitionGroup definitions _ => exact .linkDefinitionGroup definitions t
  | emptyBlock _ => exact .emptyBlock t
  | quote lines _ h => exact .quote lines t h
  | list style _ h => exact .list style t h

end Block.Within

end MarkdownSpans
