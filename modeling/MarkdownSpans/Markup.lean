import MarkdownSpans.Text.Space

/-!
# Interception of raw markup tags

Before a raw tag such as `<b>` is written, an `Interceptor` is asked whether it handles the tag
itself. `MarkupFilter` is the ready-made one: it keeps all tags, strips all, or strips those of
given names.
-/

namespace MarkdownSpans

/-- Decides for each raw tag offered whether it is handled. The answer may depend on the tags
offered before it, which stand first, the oldest at the head. -/
structure Interceptor where
  handles : List String → String → Bool

namespace Interceptor

/-- The interceptor whose answers are given in advance; past their end it handles nothing. -/
def ofAnswers (answers : List Bool) : Interceptor :=
  ⟨fun offered _ => answers[offered.length]?.getD false⟩

end Interceptor

/-- Whether a character may stand in the name of a tag. -/
def isTagChar (c : Char) : Bool := c.isAlphanum || c == '-'

/-- The name at the start of what stands inside a tag: the characters up to the first one that may
not stand in a name, if they begin with a letter. -/
def leadingName? (inner : List Char) : Option String :=
  let name := inner.takeWhile isTagChar
  if name.head?.any Char.isAlpha then some (String.ofList name) else none

/-- The name of an opening, closing or self-closing tag. Comments, processing instructions and
declarations have none. -/
def tagName? (tag : String) : Option String :=
  match tag.toList with
  | '<' :: '/' :: inner => leadingName? inner
  | '<' :: inner => leadingName? inner
  | _ => none

/-- Which raw tags a filter strips. -/
inductive MarkupFilter where
  | keepAll
  | stripAll
  /-- The tags of these names, whatever their case. -/
  | stripTags (names : List String)
  deriving DecidableEq, Repr, Inhabited

namespace MarkupFilter

/-- Whether the filter strips a tag. -/
def strips : MarkupFilter → String → Bool
  | keepAll, _ => false
  | stripAll, _ => true
  | stripTags names, tag =>
    match tagName? tag with
    | some name => names.any fun n => lowerAscii n == lowerAscii name
    | none => false

/-- A filter answers each tag on its own. -/
def interceptor (filter : MarkupFilter) : Interceptor := ⟨fun _ => filter.strips⟩

/-- For each tag whether it is stripped and how many have been stripped up to and with it. -/
def strippedCounts (filter : MarkupFilter) : Nat → List String → List (Bool × Nat)
  | _, [] => []
  | consumed, tag :: rest =>
    let consumed := if filter.strips tag then consumed + 1 else consumed
    (filter.strips tag, consumed) :: filter.strippedCounts consumed rest

end MarkupFilter

end MarkdownSpans
