import MarkdownSpans.Reader.Escape
import MarkdownSpans.Reader.Source
import MarkdownSpans.Text.Space

/-!
# The tokens of a line of text

A line of a paragraph or heading is cut into tokens: text, and the marks that may make emphasis,
code, links, HTML and line breaks of it. Which of them do is decided later, when the whole block and
all link definitions are known.
-/

namespace MarkdownSpans

/-- A kind of token. -/
inductive TokenKind where
  | text
  /-- A character reference, with the text it stands for. -/
  | reference (text : String)
  /-- A run of `*`, `_` or `~` that may open or close emphasis. -/
  | marks (mark : Char) (canOpen canClose : Bool)
  /-- A run of backticks, `escaped` if a backslash stands before it. -/
  | ticks (escaped : Bool)
  /-- A `<`. -/
  | angle
  /-- A `[`, or `![` for an image. -/
  | opener (isImage : Bool)
  /-- A `]`; `mayRefer` is false if the brackets before it were tried as the label of a link. -/
  | closer (mayRefer : Bool)
  | softBreak
  /-- A line break that is kept, written with a backslash or with white space. -/
  | hardBreak (backslash : Bool)
  deriving DecidableEq, Repr, Inhabited

/-- A token and where it stands. -/
structure Token where
  kind : TokenKind
  extent : Extent
  deriving DecidableEq, Repr, Inhabited

namespace Token

/-- Put a stretch of text behind tokens, the latest first. An empty stretch is left out, and one
next to text is joined with it. -/
def pushText (start stop : Nat) (reversed : List Token) : List Token :=
  if start < stop then
    match reversed with
    | ⟨.text, extent⟩ :: rest =>
      if extent.stop = start then ⟨.text, ⟨extent.start, stop⟩⟩ :: rest
      else ⟨.text, ⟨start, stop⟩⟩ :: reversed
    | _ => ⟨.text, ⟨start, stop⟩⟩ :: reversed
  else
    reversed

end Token

/-! ### Runs of marks -/

/-- Whether a run of marks may open emphasis. Words are not split by `_` and by a single `~`. -/
def canOpen (s : Source) (lineStart i length : Nat) (mark : Char) : Bool :=
  match s.at? (i + length) with
  | none => false
  | some next =>
    if isSpace next then false
    else if i ≤ lineStart then true
    else
      (mark == '*' && !isPunctuation next) || (mark == '~' && 1 < length)
        || s.any (i - 1) fun previous =>
          (mark == '~' && previous == '~' && !isPunctuation next)
            || isSpace previous || isPunctuation previous

/-- Whether a run of marks may close emphasis. -/
def canClose (s : Source) (lineStart i length : Nat) (mark : Char) : Bool :=
  lineStart < i && s.any (i - 1) fun previous =>
    !isSpace previous &&
      match s.at? (i + length) with
      | none => true
      | some next =>
        ((mark == '*' || (mark == '~' && 1 < length)) && !isPunctuation previous)
          || (mark == '~' && previous == '~') || isSpace next || isPunctuation next

/-! ### Lines -/

/-- The tokens of a line: all but the line break at its end, the latest first, the break, if there
is one, and the start of the next line. -/
structure TokenLine where
  reversed : List Token
  lineBreak : Option Token
  next : Nat

/-- The line that ends at a position, with the text since `textStart` not in a token yet. A
backslash or two white space characters before the line end keep the break. -/
def endLine (s : Source) (textStart i : Nat) (reversed : List Token) : TokenLine :=
  let spaceStart := s.skipBack isInlineSpace 0 i
  match s.at? i with
  | none =>
    let stop := max textStart spaceStart
    ⟨Token.pushText textStart stop reversed, none, i⟩
  | some _ =>
    let next := (s.lineEnd? i).getD (i + 1)
    let ended (stop : Nat) (kind : TokenKind) (start : Nat) : TokenLine :=
      ⟨Token.pushText textStart stop reversed, some ⟨kind, ⟨start, next⟩⟩, next⟩
    if (i - s.skipBack (· == '\\') 0 i) % 2 == 1 && next < s.size then
      ended (i - 1) (.hardBreak true) (i - 1)
    else if 2 ≤ i - spaceStart then
      ended spaceStart (.hardBreak false) spaceStart
    else
      ended spaceStart .softBreak i

/-- The tokens of a line from position `i` on, with the text since `textStart` not in a token
yet. -/
def tokensFrom (s : Source) (strikethrough : Bool) (lineStart : Nat) :
    Nat → Nat → Nat → List Token → TokenLine
  | 0, textStart, i, reversed => endLine s textStart i reversed
  | fuel + 1, textStart, i, reversed =>
    let continueAt (next : Nat) := tokensFrom s strikethrough lineStart fuel textStart next reversed
    let token (kind : TokenKind) (start stop : Nat) :=
      tokensFrom s strikethrough lineStart fuel stop stop
        (⟨kind, ⟨start, stop⟩⟩ :: Token.pushText textStart i reversed)
    match s.at? i with
    | none => endLine s textStart i reversed
    | some c =>
      if c == '\n' || c == '\r' then
        endLine s textStart i reversed
      else if c == '\\' then
        if s.has (i + 1) '\x60' then
          token (.ticks true) (i + 1) (s.run '\x60' (i + 1))
        else if s.any (i + 1) isAsciiPunctuation then
          tokensFrom s strikethrough lineStart fuel (i + 1) (i + 2)
            (Token.pushText textStart i reversed)
        else
          continueAt (i + 1)
      else if c == '*' || c == '_' || (strikethrough && c == '~') then
        let stop := s.run c i
        let opens := canOpen s lineStart i (stop - i) c
        let closes := canClose s lineStart i (stop - i) c
        if (opens || closes) && (c != '~' || stop ≤ i + 2) then
          token (.marks c opens closes) i stop
        else
          continueAt stop
      else if c == '\x60' then
        token (.ticks false) i (s.run '\x60' i)
      else if c == '<' && !s.has (i + 1) '\\' then
        token .angle i (i + 1)
      else if c == '!' && s.has (i + 1) '[' then
        token (.opener true) i (i + 2)
      else if c == '[' then
        token (.opener false) i (i + 1)
      else if c == ']' then
        token (.closer true) i (i + 1)
      else if c == '&' then
        match characterReference? (s.slice i (i + maxReferenceLength)) with
        | some (text, length) => token (.reference text) i (i + length)
        | none => continueAt (i + 1)
      else
        continueAt (i + 1)

/-- The tokens of the line of text that starts at a position. -/
def lineTokens (s : Source) (strikethrough : Bool) (start : Nat) : TokenLine :=
  tokensFrom s strikethrough start (s.size + 1) start start []

end MarkdownSpans
