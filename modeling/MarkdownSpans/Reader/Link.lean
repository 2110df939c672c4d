import MarkdownSpans.Reader.Escape
import MarkdownSpans.Reader.Marker
import MarkdownSpans.Text.CaseFold
import MarkdownSpans.Text.Space

/-!
# Labels, addresses and definitions of links

The parts that links and link definitions are made of. `linkDefinition?` reads a definition such as
`[label]: url "title"`, whose parts may stand on consecutive lines.
-/

namespace MarkdownSpans

/-! ### Labels -/

/-- A stretch of white space with at most one line end in it: its end and whether it holds more
than one space. What follows the line end is passed by `newline`. -/
def labelSpace? (s : Source) (newline : Nat → Option Nat) : Nat → Bool → Nat → Option Nat
  | 0, _, i => some i
  | fuel + 1, hadLineEnd, i =>
    match s.at? i with
    | none => some i
    | some c =>
      if isInlineSpace c then
        labelSpace? s newline fuel hadLineEnd (i + 1)
      else if isTextSpace c then
        if hadLineEnd then none
        else ((s.lineEnd? i).bind newline).bind (labelSpace? s newline fuel true)
      else
        some i

/-- The size that a label may not reach. White space, escapes and what is not ASCII count. -/
def maxLabelSize : Nat := 1000

/-- The label from a position on, with `reversed` before it: its end and the label, in which a
space stands for all white space. -/
def labelFrom? (s : Source) (newline : Nat → Option Nat) :
    Nat → Nat → List Char → Nat → Option (Nat × List Char)
  | 0, _, _, _ => none
  | fuel + 1, size, reversed, i =>
    if maxLabelSize ≤ size then
      none
    else
      match s.at? i with
      | none => none
      | some c =>
        if c == '[' then none
        else if c == ']' then some (i + 1, reversed.reverse)
        else if c == '\\' then
          match s.at? (i + 1) with
          | none => none
          | some d =>
            labelFrom? s newline fuel (size + 1 + d.utf8Size) (d :: c :: reversed) (i + 2)
        else if isTextSpace c then
          (labelSpace? s newline s.size false i).bind fun stop =>
            labelFrom? s newline fuel (size + (stop - i)) (' ' :: reversed) stop
        else
          labelFrom? s newline fuel (if c.toNat < 0x80 then size else size + c.utf8Size)
            (c :: reversed) (i + 1)

/-- The label whose bracket stands at a position: its end and the label. White space alone is no
label. -/
def linkLabel? (s : Source) (newline : Nat → Option Nat) (i : Nat) : Option (Nat × String) := do
  if !s.has i '[' then
    none
  let (stop, label) ← labelFrom? s newline (s.size + 1) 0 [] (i + 1)
  let label := dropRightWhile (· == ' ') (label.dropWhile (· == ' '))
  if label.isEmpty then none else some (stop, String.ofList label)

/-! ### Addresses -/

/-- The end of an address in angle brackets, from behind the first. -/
def bracketedEnd? (s : Source) : Nat → Nat → Option Nat
  | 0, _ => none
  | fuel + 1, i =>
    match s.at? i with
    | none => none
    | some c =>
      if c == '\n' || c == '\r' || c == '<' then none
      else if c == '>' then some (i + 1)
      else if c == '\\' && s.any (i + 1) isAsciiPunctuation then bracketedEnd? s fuel (i + 2)
      else bracketedEnd? s fuel (i + 1)

/-- How deep parentheses may be nested in an address. -/
def maxParentheses : Nat := 33

/-- The end of an address without angle brackets, in which parentheses are balanced. -/
def plainEnd? (s : Source) : Nat → Nat → Nat → Option Nat
  | 0, _, _ => none
  | fuel + 1, depth, i =>
    let done := if depth == 0 then some i else none
    match s.at? i with
    | none => done
    | some c =>
      if c.toNat ≤ 0x20 then done
      else if c == '(' then
        if depth < maxParentheses then plainEnd? s fuel (depth + 1) (i + 1) else none
      else if c == ')' then
        if depth == 0 then done else plainEnd? s fuel (depth - 1) (i + 1)
      else if c == '\\' && s.any (i + 1) isAsciiPunctuation then plainEnd? s fuel depth (i + 2)
      else plainEnd? s fuel depth (i + 1)

/-- The address at a position: its end and its text. -/
def linkAddress? (s : Source) (i : Nat) : Option (Nat × String) :=
  if s.has i '<' then
    (bracketedEnd? s (s.size + 1) (i + 1)).map fun stop =>
      (stop, unescapeText (s.text (i + 1) (stop - 1)))
  else
    (plainEnd? s (s.size + 1) 0 i).map fun stop => (stop, unescapeText (s.text i stop))

/-! ### Definitions -/

/-- What a label stands for. -/
structure LinkTarget where
  /-- The label, with its case folded. -/
  label : String
  url : String
  title : String
  extent : Extent

/-- The position after the leads of the line that starts at a position, if that line goes on with a
paragraph: it does not if it ends one or underlines it as a heading. -/
def continuation? (s : Source) (leads : List Lead) (i : Nat) : Option Nat :=
  let (current, c) := matchAll s leads (Cursor.start i)
  let (missing, c) := c.skipColumns s 4
  if 0 < missing && (endsParagraph s current c.pos || (current && (underline? s c.pos).isSome)) then
    none
  else
    some c.pos

/-- White space between the parts of a definition: its end and how many line ends it holds, one at
most. -/
def partSpace? (s : Source) (leads : List Lead) (i : Nat) : Option (Nat × Nat) :=
  let stop := s.skip isInlineSpace i
  match s.lineEnd? stop with
  | none => some (stop, 0)
  | some next => do
    let content ← continuation? s leads next
    let stop := s.skip isInlineSpace content
    if s.isLineEnd stop then none else some (stop, 1)

/-- The title from behind its first delimiter on, with `reversed` before it: its end and the title
as it is written. No line of a title is blank. -/
def titleFrom? (s : Source) (leads : List Lead) (closer : Char) :
    Nat → List Char → Nat → Option (Nat × List Char)
  | 0, _, _ => none
  | fuel + 1, reversed, i =>
    match s.at? i with
    | none => none
    | some c =>
      if c == '(' && closer == ')' then none
      else if c == closer then some (i + 1, reversed.reverse)
      else if c == '\n' || c == '\r' then do
        let next ← s.lineEnd? i
        let content ← continuation? s leads next
        let content := s.skip (fun x => x == ' ' || x == '\t') content
        if s.isBlankLine content then none
        else titleFrom? s leads closer fuel ('\n' :: reversed) content
      else if c == '\\' && s.any (i + 1) (fun d => d != '\n' && d != '\r') then
        titleFrom? s leads closer fuel ((s.slice i (i + 2)).reverse ++ reversed) (i + 2)
      else
        titleFrom? s leads closer fuel (c :: reversed) (i + 1)

/-- The title at a position: its end and its text. -/
def definitionTitle? (s : Source) (leads : List Lead) (i : Nat) : Option (Nat × String) := do
  let opener ← s.at? i
  let closer ←
    if opener == '"' || opener == '\'' then some opener
    else if opener == '(' then some ')' else none
  let (stop, title) ← titleFrom? s leads closer (s.size + 1) [] (i + 1)
  some (stop, String.ofList (unescape title))

/-- The definition of a link that starts at a position, in a paragraph inside containers with the
given leads. A title that does not end its line is no title; then the definition has to end before
the line of the title. -/
def linkDefinition? (s : Source) (leads : List Lead) (i : Nat) : Option LinkTarget := do
  let (behindLabel, label) ← linkLabel? s (continuation? s leads) i
  if !s.has behindLabel ':' then
    none
  let (address, _) ← partSpace? s leads (behindLabel + 1)
  let (behindAddress, url) ← linkAddress? s address
  if behindAddress == address then
    none
  let untitled : LinkTarget := ⟨foldText label, url, "", ⟨i, behindAddress⟩⟩
  match partSpace? s leads behindAddress with
  | none => some untitled
  | some (title, lineEnds) =>
    if title == behindAddress && lineEnds == 0 then
      none
    else
      let titled := (definitionTitle? s leads title).filter fun (stop, _) => s.isBlankLine stop
      match titled with
      | some (stop, text) => some { untitled with title := text, extent := ⟨i, stop⟩ }
      | none => if 0 < lineEnds then some untitled else none

end MarkdownSpans
