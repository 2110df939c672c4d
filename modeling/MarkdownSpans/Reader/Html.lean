import MarkdownSpans.Reader.Source

/-!
# Raw HTML

The scans that recognise raw HTML: the lines that start a block of HTML, and the tags, comments,
instructions and declarations that stand in a line of text. A tag in a paragraph may go on over
lines; what the containers of the paragraph put in front of those lines is not part of it.
-/

namespace MarkdownSpans

/-! ### Blocks -/

/-- The names of the tags that start a block of HTML wherever they stand first in a line. -/
def htmlBlockTags : List String :=
  ["address", "article", "aside", "base", "basefont", "blockquote", "body", "caption", "center",
   "col", "colgroup", "dd", "details", "dialog", "dir", "div", "dl", "dt", "fieldset", "figcaption",
   "figure", "footer", "form", "frame", "frameset", "h1", "h2", "h3", "h4", "h5", "h6", "head",
   "header", "hr", "html", "iframe", "legend", "li", "link", "main", "menu", "menuitem", "nav",
   "noframes", "ol", "optgroup", "option", "p", "param", "search", "section", "summary", "table",
   "tbody", "td", "tfoot", "th", "thead", "title", "tr", "track", "ul"]

/-- The names of the tags whose block ends with the line of their closing tag. -/
def rawTextTags : List String := ["pre", "style", "script", "textarea"]

/-- The text whose line ends the block of HTML that starts at a `<`, for the kinds of blocks that
have such a text. -/
def htmlBlockEnd? (s : Source) (i : Nat) : Option String :=
  let named (name : String) : Bool :=
    let stop := i + 1 + name.length
    (s.slice (i + 1) stop).map Char.toLower == name.toList
      && (s.at? stop).all fun c => isTextSpace c || c == '>'
  if !s.has i '<' then
    none
  else
    match rawTextTags.find? named with
    | some name => some ("</" ++ name ++ ">")
    | none =>
      if s.startsWith (i + 1) "!--".toList then some "-->"
      else if s.has (i + 1) '?' then some "?>"
      else if s.startsWith (i + 1) "![CDATA[".toList then some "]]>"
      else if s.has (i + 1) '!' && s.any (i + 2) Char.isAlpha then some ">"
      else none

/-- Whether a tag that starts a block of HTML stands at a position. -/
def startsHtmlBlock (s : Source) (i : Nat) : Bool :=
  let start := if s.has (i + 1) '/' then i + 2 else i + 1
  let stop := s.skip Char.isAlphanum start
  s.has i '<'
    && htmlBlockTags.contains (String.ofList ((s.slice start stop).map Char.toLower))
    && (((s.at? stop).all fun c => c == ' ' || c == '\t' || c == '\r' || c == '\n' || c == '>')
      || s.startsWith stop "/>".toList)

/-! ### Tags -/

/-- A place inside a tag: a position, and the stretches passed that are not part of the tag, the
latest first. -/
structure TagPlace where
  pos : Nat
  cuts : List Extent := []

namespace TagPlace

/-- Pass a line end. The start of the next line's content is given by `newline`; without it a tag
stays in its line. -/
def passLineEnd? (s : Source) (newline : Option (Nat → Nat)) (t : TagPlace) : Option TagPlace :=
  match newline, s.lineEnd? t.pos with
  | some content, some start =>
    let stop := content start
    some ⟨stop, if start < stop then ⟨start, stop⟩ :: t.cuts else t.cuts⟩
  | _, _ => none

/-- Pass white space. -/
def passSpace? (s : Source) (newline : Option (Nat → Nat)) : Nat → TagPlace → Option TagPlace
  | 0, t => some t
  | fuel + 1, t =>
    if s.any t.pos isInlineSpace then passSpace? s newline fuel { t with pos := t.pos + 1 }
    else if s.any t.pos isTextSpace then
      (t.passLineEnd? s newline).bind (passSpace? s newline fuel)
    else
      some t

/-- Pass the rest of a quoted value. -/
def passQuoted? (s : Source) (newline : Option (Nat → Nat)) (quote : Char) :
    Nat → TagPlace → Option TagPlace
  | 0, _ => none
  | fuel + 1, t =>
    match s.at? t.pos with
    | none => none
    | some c =>
      if c == quote then some { t with pos := t.pos + 1 }
      else if c == '\n' || c == '\r' then
        (t.passLineEnd? s newline).bind (passQuoted? s newline quote fuel)
      else
        passQuoted? s newline quote fuel { t with pos := t.pos + 1 }

/-- Whether a value without quotes cannot hold a character. -/
def endsValue (c : Char) : Bool :=
  isTextSpace c || c == '"' || c == '\'' || c == '=' || c == '<' || c == '>' || c == '\x60'

/-- Pass the value of an attribute. -/
def passValue? (s : Source) (newline : Option (Nat → Nat)) (t : TagPlace) : Option TagPlace :=
  match s.at? t.pos with
  | none => none
  | some c =>
    if c == '"' || c == '\'' then passQuoted? s newline c s.size { t with pos := t.pos + 1 }
    else if endsValue c then none
    else some { t with pos := s.skip (!endsValue ·) t.pos }

/-- Pass an attribute. White space behind a name without value is left. -/
def passAttribute? (s : Source) (newline : Option (Nat → Nat)) (t : TagPlace) :
    Option TagPlace := do
  if !s.any t.pos (fun c => c.isAlpha || c == '_' || c == ':') then
    none
  let name : TagPlace :=
    { t with
        pos :=
          s.skip (fun c => c.isAlphanum || c == '_' || c == '.' || c == ':' || c == '-') t.pos }
  let sign ← passSpace? s newline s.size name
  if s.has sign.pos '=' then
    let value ← passSpace? s newline s.size { sign with pos := sign.pos + 1 }
    value.passValue? s newline
  else
    some name

/-- Pass the attributes of a tag up to its end. White space is needed before each. -/
def passAttributes? (s : Source) (newline : Option (Nat → Nat)) : Nat → TagPlace → Option TagPlace
  | 0, _ => none
  | fuel + 1, t => do
    let next ← passSpace? s newline s.size t
    if s.has next.pos '/' || s.has next.pos '>' then
      some next
    else if next.pos == t.pos then
      none
    else
      let behind ← next.passAttribute? s newline
      passAttributes? s newline fuel behind

end TagPlace

/-- The place after the opening or closing tag that starts at a position. -/
def htmlTag? (s : Source) (newline : Option (Nat → Nat)) (i : Nat) : Option TagPlace := do
  let closing := s.has (i + 1) '/'
  let name := if closing then i + 2 else i + 1
  if !s.has i '<' || !s.any name Char.isAlpha then
    none
  let behindName : TagPlace := ⟨s.skip (fun c => c.isAlphanum || c == '-') name, []⟩
  let behind ←
    if closing then
      some { behindName with pos := s.skip isInlineSpace behindName.pos }
    else do
      let t ← behindName.passAttributes? s newline s.size
      some (if s.has t.pos '/' then { t with pos := t.pos + 1 } else t)
  if s.has behind.pos '>' then some { behind with pos := behind.pos + 1 } else none

/-- Whether a line holds nothing but one tag, which starts at a position. -/
def isTagLine (s : Source) (i : Nat) : Bool :=
  match htmlTag? s none i with
  | some t => s.isBlankLine t.pos
  | none => false

/-! ### Comments, instructions and declarations -/

/-- The end of a section of character data whose content starts at a position. It has to end with
the first brackets in it. -/
def htmlDataEnd? (s : Source) (i : Nat) : Option Nat :=
  let start := s.skip (· ≠ ']') i
  let stop := s.run ']' start
  if start < stop && s.has stop '>' then some (stop + 1) else none

/-- The end of the raw HTML other than a tag that starts at a position. -/
def htmlMark? (s : Source) (i : Nat) : Option Nat :=
  if s.startsWith i "<!--".toList then s.find? "-->".toList (i + 2)
  else if s.startsWith i "<![CDATA[".toList then htmlDataEnd? s (i + 9)
  else if s.startsWith i "<!".toList && s.any (i + 2) Char.isAlpha then s.find? [ '>' ] (i + 3)
  else if s.startsWith i "<?".toList then s.find? "?>".toList (i + 2)
  else none

/-- The text between two positions without the stretches that are cut out of it, the latest
first. -/
def textWithout (s : Source) (start stop : Nat) : List Extent → List Char
  | [] => s.slice start stop
  | cut :: cuts => textWithout s start cut.start cuts ++ s.slice cut.stop stop

/-- The raw HTML that starts at a position of a text: its end and its content. -/
def inlineHtml? (s : Source) (newline : Nat → Nat) (i : Nat) : Option (Nat × String) :=
  match htmlMark? s i with
  | some stop => some (stop, s.text i stop)
  | none =>
    (htmlTag? s (some newline) i).map fun t =>
      (t.pos, String.ofList (textWithout s i t.pos t.cuts))

end MarkdownSpans
