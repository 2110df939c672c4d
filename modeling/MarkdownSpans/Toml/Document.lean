import MarkdownSpans.Toml.Quote
import MarkdownSpans.Toml.Scalar
import MarkdownSpans.Toml.Tables

/-!
# TOML documents

`TomlValue.readDocument?` reads the entries of a TOML document. A document that breaks a rule of the
format has none.
-/

namespace MarkdownSpans

namespace Toml

/-! ### White space and comments -/

/-- A text without the spaces and tabs before it. -/
def dropSpace (cs : List Char) : List Char := cs.dropWhile isLineSpace

/-- A text without the comment it starts with. -/
def dropComment : List Char → List Char
  | '#' :: rest => rest.dropWhile isPlainChar
  | cs => cs

/-- What follows the end of a line, before which only a comment may stand. -/
def endLine? (cs : List Char) : Option (List Char) :=
  match dropComment (dropSpace cs) with
  | [] => some []
  | cs => dropLineEnd? cs

/-- A text without white space, line ends and comments before it. -/
def dropGap : Nat → List Char → List Char
  | 0, cs => cs
  | fuel + 1, cs =>
    match dropLineEnd? (dropComment (dropSpace cs)) with
    | some rest => dropGap fuel rest
    | none => dropSpace cs

/-! ### Keys -/

/-- Whether a character may stand in a key without quotes. -/
def isKeyChar (c : Char) : Bool := c.isAlphanum || c == '_' || c == '-'

/-- The key that a text starts with, and what follows it. -/
def key? (cs : List Char) : Option (String × List Char) :=
  match cs.takeWhile isKeyChar with
  | [] => quotedLine? cs
  | name => some (String.ofList name, cs.drop name.length)

/-- The keys between dots that a text starts with, and what follows them. -/
def keys? : Nat → List Char → Option (List String × List Char)
  | 0, _ => none
  | fuel + 1, cs => do
    let (key, rest) ← key? (dropSpace cs)
    match dropSpace rest with
    | '.' :: rest =>
      let (keys, rest) ← keys? fuel rest
      some (key :: keys, rest)
    | rest => some ([key], rest)

/-! ### Values -/

/-- How deep lists and inline tables may be nested. -/
def maxDepth : Nat := 80

mutual

/-- The value that a text starts with, with `depth` more levels allowed, and what follows it. -/
def value? : Nat → Nat → List Char → Option (TomlValue × List Char)
  | 0, _, _ => none
  | fuel + 1, depth, cs =>
    match cs with
    | '[' :: rest =>
      if depth == 0 then none
      else (items? fuel (depth - 1) rest).map fun (items, rest) => (.list items, rest)
    | '\x7b' :: rest =>
      if depth == 0 then none
      else
        (inlineEntries? fuel (depth - 1) [] rest).map fun (parts, rest) =>
          (.table (entries parts), rest)
    | '"' :: _ | '\'' :: _ => (quotedText? cs).map fun (text, rest) => (.text text, rest)
    | _ => scalar? cs

/-- The items of a list up to its bracket, and what follows it. -/
def items? : Nat → Nat → List Char → Option (List TomlValue × List Char)
  | 0, _, _ => none
  | fuel + 1, depth, cs =>
    match dropGap fuel cs with
    | ']' :: rest => some ([], rest)
    | cs => do
      let (item, rest) ← value? fuel depth cs
      match dropGap fuel rest with
      | ']' :: rest => some ([item], rest)
      | ',' :: rest =>
        let (items, rest) ← items? fuel depth rest
        some (item :: items, rest)
      | _ => none

/-- The entries of an inline table up to its brace, after those so far, and what follows it. -/
def inlineEntries? : Nat → Nat → Parts → List Char → Option (Parts × List Char)
  | 0, _, _, _ => none
  | fuel + 1, depth, parts, cs =>
    match dropGap fuel cs with
    | '\x7d' :: rest => some (parts, rest)
    | cs => do
      let (keys, rest) ← keys? fuel cs
      let (value, rest) ← value? fuel depth (dropSpace (← dropChar? '=' rest))
      let parts ← addEntry keys value parts
      match dropGap fuel rest with
      | '\x7d' :: rest => some (parts, rest)
      | ',' :: rest => inlineEntries? fuel depth parts rest
      | _ => none

end

/-! ### Documents -/

/-- What a document holds so far, and the keys of the header it is under. -/
structure Draft where
  parts : Parts := []
  header : List String := []

/-- Read the line, or the lines of one entry, that a text starts with; gives what follows. -/
def readEntry? (fuel : Nat) (cs : List Char) (draft : Draft) : Option (Draft × List Char) :=
  match dropSpace cs with
  | '[' :: '[' :: rest => do
    let (keys, rest) ← keys? fuel rest
    let rest ← endLine? (← dropChar? ']' (← dropChar? ']' rest))
    some (⟨← openElement keys draft.parts, keys⟩, rest)
  | '[' :: rest => do
    let (keys, rest) ← keys? fuel rest
    let rest ← endLine? (← dropChar? ']' rest)
    some (⟨← openTable keys draft.parts, keys⟩, rest)
  | cs =>
    match endLine? cs with
    | some rest => some (draft, rest)
    | none => do
      let (keys, rest) ← keys? fuel cs
      let (value, rest) ← value? fuel maxDepth (dropSpace (← dropChar? '=' rest))
      let rest ← endLine? rest
      let parts ← changeTable .headerPath (addEntry keys value) draft.header draft.parts
      some ({ draft with parts }, rest)

/-- Read all entries of a text. -/
def readEntries? : Nat → List Char → Draft → Option Draft
  | _, [], draft => some draft
  | 0, _, _ => none
  | fuel + 1, cs, draft => do
    let (draft, rest) ← readEntry? (cs.length + 2) cs draft
    readEntries? fuel rest draft

end Toml

/-- The entries of a TOML document. A byte order mark may stand before it. -/
def TomlValue.readDocument? (text : String) : Option (List (String × TomlValue)) :=
  let cs :=
    match text.toList with
    | c :: rest => if c.toNat = 0xfeff then rest else c :: rest
    | [] => []
  (Toml.readEntries? (cs.length + 1) cs {}).map fun draft => Toml.entries draft.parts

end MarkdownSpans
