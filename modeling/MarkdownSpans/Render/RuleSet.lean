import MarkdownSpans.Render.Program

/-!
# Rule sets

A rule set gives each kind of node the rule that renders it. Nodes of extensions are looked up by
their own names, so that an extension needs no new kind.
-/

namespace MarkdownSpans

/-- What renders a node: the program to run for it. -/
abbrev Rule := Node → Program

/-- The rules of a pass. -/
structure RuleSet where
  /-- The rules of the built-in kinds. -/
  rule? : NodeKind → Option Rule
  /-- The rules of extensions, by name. -/
  custom? : String → Option Rule

namespace RuleSet

/-- No rules. -/
def empty : RuleSet := ⟨fun _ => none, fun _ => none⟩

/-- Give a kind a rule, in place of the one it had. -/
def insert (rules : RuleSet) (kind : NodeKind) (rule : Rule) : RuleSet :=
  { rules with rule? := fun k => if k = kind then some rule else rules.rule? k }

/-- Give the nodes of an extension a rule, in place of the one they had. -/
def insertCustom (rules : RuleSet) (name : String) (rule : Rule) : RuleSet :=
  { rules with custom? := fun n => if n = name then some rule else rules.custom? n }

/-- Take the rule of a kind away. -/
def erase (rules : RuleSet) (kind : NodeKind) : RuleSet :=
  { rules with rule? := fun k => if k = kind then none else rules.rule? k }

/-- Whether a kind has a rule. -/
def contains (rules : RuleSet) (kind : NodeKind) : Bool := (rules.rule? kind).isSome

/-- The rule of a node, by its own name if it has one and by its kind otherwise. -/
def find? (rules : RuleSet) (node : Node) : Option Rule :=
  match node.customName? with
  | some name => rules.custom? name
  | none => rules.rule? node.kind

end RuleSet

end MarkdownSpans
