import MarkdownSpans.Reader.Layout
import MarkdownSpans.Tree.Event

/-!
# The pieces of a text

The tokens of a paragraph or heading, read from left to right, make pieces: links, code, HTML and
text, with the marks that may make emphasis still among them. `pieces` reads a whole text.
-/

namespace MarkdownSpans

/-- What a link or image is. -/
structure LinkHead where
  isImage : Bool
  type : LinkType
  url : String
  title : String
  deriving DecidableEq, Repr, Inhabited

/-- A piece of a text. -/
inductive Piece where
  | text (extent : Extent)
  /-- A character reference, with the text it stands for. -/
  | reference (text : String) (extent : Extent)
  /-- Marks that may open or close emphasis. -/
  | marks (mark : Char) (canOpen canClose : Bool) (extent : Extent)
  | code (content : String) (extent : Extent)
  | html (content : String) (extent : Extent)
  | softBreak (extent : Extent)
  | hardBreak (backslash : Bool) (extent : Extent)
  | link (head : LinkHead) (extent : Extent) (children : List Piece)
  deriving Inhabited

/-- What the pieces of a text are read from. -/
structure TextSource where
  /-- The source up to the end of the block. -/
  source : Source
  /-- What the lines of the block start with. -/
  leads : List Lead
  /-- What labels stand for. -/
  targets : List LinkTarget

namespace TextSource

/-- The start of the content of a line. -/
def content (t : TextSource) (i : Nat) : Nat := skipLeads t.source t.leads i

/-- What a label stands for. -/
def target? (t : TextSource) (label : String) : Option LinkTarget :=
  let folded := foldText label
  t.targets.find? (·.label == folded)

end TextSource

/-! ### Tokens behind a position -/

/-- The tokens that do not end before a position. -/
def tokensTo (stop : Nat) (tokens : List Token) : List Token :=
  tokens.dropWhile (·.extent.stop ≤ stop)

/-- What is left of tokens when the source up to a position is used. -/
def tokensBehind (stop : Nat) (tokens : List Token) : List Token :=
  match tokensTo stop tokens with
  | [] => []
  | t :: rest => { t with extent := ⟨max t.extent.start stop, t.extent.stop⟩ } :: rest

/-! ### Autolinks -/

/-- The end of the address with a scheme that stands before a `>`. -/
def schemeAddress? (s : Source) (i : Nat) : Option Nat :=
  let colon := s.skip (fun c => c.isAlphanum || c == '.' || c == '-' || c == '+') i
  let stop := s.skip (fun c => ' ' < c && c != '<' && c != '>') colon
  if s.any i Char.isAlpha && s.has colon ':' && 2 ≤ colon - i && colon - i ≤ 32
      && s.has stop '>' then
    some stop
  else
    none

/-- The end of the labels of a host that start at a position. -/
def hostLabels? (s : Source) : Nat → Nat → Option Nat
  | 0, _ => none
  | fuel + 1, i =>
    let stop := s.skip (fun c => c.isAlphanum || c == '-') i
    if i < stop && stop ≤ i + 63 && !s.has i '-' && !s.has (stop - 1) '-' then
      if s.has stop '.' then hostLabels? s fuel (stop + 1) else some stop
    else
      none

/-- Whether a character may stand in the local part of an email address. -/
def isEmailChar (c : Char) : Bool :=
  c.isAlphanum || ".!#$%&'*+/=?^_\x60\x7b|\x7d~-".toList.contains c

/-- The end of the email address that stands before a `>`. -/
def emailAddress? (s : Source) (i : Nat) : Option Nat := do
  let sign := s.skip isEmailChar i
  if i == sign || !s.has sign '@' then
    none
  let stop ← hostLabels? s s.size (sign + 1)
  if s.has stop '>' then some stop else none

/-- The end of the address that stands between angle brackets from a position on, and its kind. -/
def autolink? (s : Source) (i : Nat) : Option (Nat × LinkType) :=
  match schemeAddress? s i with
  | some stop => some (stop, .autolink)
  | none => (emailAddress? s i).map fun stop => (stop, .email)

/-! ### Code -/

/-- The text of code between two positions, with a space for each line end. -/
def codeText (s : Source) (leads : List Lead) : Nat → Nat → List Char
  | 0, _ => []
  | fuel + 1, i =>
    match s.at? i with
    | none => []
    | some c =>
      if c == '\n' || c == '\r' then ' ' :: codeText s leads fuel (skipLeads s leads (i + 1))
      else c :: codeText s leads fuel (i + 1)

/-- Code without the space at both of its ends, which it may have unless it is all spaces. -/
def trimCode (cs : List Char) : List Char :=
  if cs.head? == some ' ' && cs.getLast? == some ' ' && cs.any (· != ' ') then
    (cs.drop 1).dropLast
  else
    cs

/-- The content of the code between two positions. -/
def codeContent (t : TextSource) (start stop : Nat) : String :=
  let s := t.source.upTo stop
  String.ofList (trimCode (codeText s t.leads (s.size + 1) start))

/-! ### The parts of links -/

/-- The end of the white space between the parts of a link: one line end may be in it. -/
def TextSource.skipSeparator (t : TextSource) (i : Nat) : Nat :=
  let stop := t.source.skip isInlineSpace i
  match t.source.lineEnd? stop with
  | some next => t.source.skip isInlineSpace (t.content next)
  | none => stop

/-- The title from behind its first delimiter on, with `reversed` before it: its end and its text.
The tokens tell where a line goes on. -/
def linkTitleFrom? (s : Source) (tokens : List Token) (opener closer : Char) :
    Nat → List Char → Nat → Option (Nat × List Char)
  | 0, _, _ => none
  | fuel + 1, reversed, i =>
    match s.at? i with
    | none => none
    | some c =>
      let plain := linkTitleFrom? s tokens opener closer fuel (c :: reversed) (i + 1)
      if c == closer then some (i + 1, reversed.reverse)
      else if c == opener then none
      else if c == '\n' || c == '\r' then
        match tokensTo (i + 1) tokens with
        | [] => plain
        | t :: _ =>
          if i < t.extent.start then
            linkTitleFrom? s tokens opener closer fuel ('\n' :: reversed) t.extent.start
          else
            plain
      else if c == '\\' && s.any (i + 1) isAsciiPunctuation then
        linkTitleFrom? s tokens opener closer fuel ((s.slice (i + 1) (i + 2)) ++ reversed) (i + 2)
      else
        match characterReference? (s.slice i (i + maxReferenceLength)) with
        | some (text, length) =>
          linkTitleFrom? s tokens opener closer fuel (text.toList.reverse ++ reversed) (i + length)
        | none => plain

/-- The title of a link at a position: its end and its text. -/
def linkTitle? (s : Source) (tokens : List Token) (i : Nat) : Option (Nat × String) := do
  let opener ← s.at? i
  let closer ←
    if opener == '"' || opener == '\'' then some opener
    else if opener == '(' then some ')' else none
  let (stop, title) ← linkTitleFrom? s tokens opener closer (s.size + 1) [] (i + 1)
  some (stop, String.ofList title)

/-- The address and title in parentheses that may follow the text of a link: the end, the address
and the title. -/
def linkParentheses? (t : TextSource) (tokens : List Token) (i : Nat) :
    Option (Nat × String × String) := do
  if !t.source.has i '(' then
    none
  let (addressEnd, url) ← linkAddress? t.source (t.skipSeparator (i + 1))
  let titleStart := t.skipSeparator addressEnd
  let (stop, title) :=
    match linkTitle? t.source tokens titleStart with
    | some (titleEnd, title) => (t.skipSeparator titleEnd, title)
    | none => (titleStart, "")
  if t.source.has stop ')' then some (stop + 1, url, title) else none

/-! ### Brackets -/

/-- Whether a piece is a run of marks. -/
def Piece.isMarks : Piece → Bool
  | marks .. => true
  | _ => false

/-- The pieces of the text of a link. Behind marks a line break that ends the text is not kept. -/
def settleLastBreak (pieces : List Piece) : List Piece :=
  if pieces.any Piece.isMarks then
    match pieces.getLast? with
    | some (.hardBreak true extent) => pieces.dropLast ++ [.reference "\\" extent]
    | some (.hardBreak false extent) => pieces.dropLast ++ [.softBreak extent]
    | _ => pieces
  else
    pieces

/-- An opening bracket that is not closed yet. -/
structure OpenBracket where
  extent : Extent
  isImage : Bool
  /-- Whether a link may start here: links do not contain links. -/
  isActive : Bool := true
  /-- The pieces before it since the bracket around it, the latest first. -/
  before : List Piece

/-- The pieces of a text so far: the open brackets, innermost first, and the pieces since the
innermost, the latest first. -/
structure PieceStack where
  brackets : List OpenBracket := []
  reversed : List Piece := []

namespace PieceStack

/-- Add a piece. -/
def push (piece : Piece) (p : PieceStack) : PieceStack :=
  { p with reversed := piece :: p.reversed }

/-- Add an opening bracket. -/
def enter (isImage : Bool) (extent : Extent) (p : PieceStack) : PieceStack :=
  { brackets := { extent, isImage, before := p.reversed } :: p.brackets, reversed := [] }

/-- Make the innermost bracket text. -/
def giveUp (p : PieceStack) : PieceStack :=
  match p.brackets with
  | [] => p
  | b :: rest => { brackets := rest, reversed := p.reversed ++ .text b.extent :: b.before }

/-- Make a link of the innermost bracket and what follows it. -/
def close (type : LinkType) (url title : String) (stop : Nat) (p : PieceStack) : PieceStack :=
  match p.brackets with
  | [] => p
  | b :: rest =>
    { brackets :=
        if b.isImage then rest
        else rest.map fun outer =>
          if outer.isImage then outer else { outer with isActive := false }
      reversed :=
        .link ⟨b.isImage, type, url, title⟩ ⟨b.extent.start, stop⟩
          (settleLastBreak p.reversed.reverse) :: b.before }

/-- All pieces, the open brackets being text. -/
def finish (p : PieceStack) : List Piece :=
  (p.brackets.foldl (fun p _ => p.giveUp) p).reversed.reverse

end PieceStack

/-- How the text in brackets refers to a target. -/
structure LinkReference where
  type : LinkType
  label : String
  /-- The end of the link. -/
  stop : Nat
  /-- The tokens after it. -/
  rest : List Token

/-- The tokens in which the closing bracket that ends at a position may not refer any more. -/
def forbidReference (stop : Nat) (tokens : List Token) : List Token :=
  match tokensTo (stop - 1) tokens with
  | [] => tokens
  | t :: rest =>
    tokens.take (tokens.length - rest.length - 1) ++ { t with kind := .closer false } :: rest

/-- The reference that the text in brackets makes, by the label in brackets that follows it or by
itself, and the tokens after the closing bracket. -/
def linkReference? (t : TextSource) (opening closing : Extent) (mayRefer : Bool)
    (rest : List Token) : Option LinkReference × List Token :=
  let ownLabel (type : LinkType) (behind : List Token) : Option LinkReference :=
    if mayRefer then
      match linkLabel? (t.source.upTo closing.stop) (fun i => some (t.content i))
          (opening.stop - 1) with
      | some (stop, label) =>
        if stop == closing.stop then some ⟨type, label, stop, behind⟩ else none
      | none => none
    else
      none
  match rest with
  | [] => (ownLabel .shortcut rest, rest)
  | next :: _ =>
    let start := next.extent.start
    if t.source.startsWith start "[]".toList then
      (ownLabel .collapsed (rest.drop 2), rest)
    else
      match linkLabel? t.source (fun i => some (t.content i)) start with
      | some (stop, label) =>
        let tried := forbidReference stop rest
        match tokensTo (stop - 1) rest with
        | [] => (none, rest)
        | _ :: behind => (some ⟨.reference, label, stop, behind⟩, tried)
      | none => (ownLabel .shortcut rest, rest)

/-- Read the closing bracket at some place, with the tokens after it; gives the tokens left. -/
def closeBracket (t : TextSource) (closing : Extent) (mayRefer : Bool) (rest : List Token)
    (p : PieceStack) : PieceStack × List Token :=
  let asText (rest : List Token) := (p.giveUp.push (.text closing), rest)
  match p.brackets with
  | [] => asText rest
  | b :: _ =>
    if !b.isActive then
      asText rest
    else
      match linkParentheses? t rest closing.stop with
      | some (stop, url, title) => (p.close .inline url title stop, tokensBehind stop rest)
      | none =>
        let (reference, rest) := linkReference? t b.extent closing mayRefer rest
        match reference.bind fun r => (t.target? r.label).map fun target => (r, target) with
        | some (r, target) => (p.close r.type target.url target.title r.stop, r.rest)
        | none => asText rest

/-! ### Reading -/

/-- The tokens from the next run of so many backticks on. -/
def ticksFrom? (count : Nat) : List Token → Option (Extent × List Token)
  | [] => none
  | ⟨.ticks _, extent⟩ :: rest =>
    if extent.stop - extent.start == count then some (extent, rest) else ticksFrom? count rest
  | _ :: rest => ticksFrom? count rest

/-- Read a run of backticks, with the tokens after it; gives the tokens left. The first backtick of
an escaped run is text. -/
def readTicks (t : TextSource) (escaped : Bool) (extent : Extent) (rest : List Token)
    (p : PieceStack) : PieceStack × List Token :=
  let start := if escaped then extent.start + 1 else extent.start
  let close? := if start < extent.stop then ticksFrom? (extent.stop - start) rest else none
  match close? with
  | none => (p.push (.text extent), rest)
  | some (close, rest) =>
    let p := if escaped then p.push (.text ⟨extent.start, start⟩) else p
    (p.push (.code (codeContent t extent.stop close.start) ⟨start, close.stop⟩), rest)

/-- Read a `<`, with the tokens after it; gives the tokens left. -/
def readAngle (t : TextSource) (extent : Extent) (rest : List Token) (p : PieceStack) :
    PieceStack × List Token :=
  match rest with
  | [] => (p.push (.text extent), rest)
  | next :: _ =>
    let start := next.extent.start
    match autolink? t.source start with
    | some (stop, type) =>
      let head : LinkHead := ⟨false, type, t.source.text start stop, ""⟩
      (p.push (.link head ⟨extent.start, stop + 1⟩ [.text ⟨extent.start + 1, stop⟩]),
        tokensBehind (stop + 1) rest)
    | none =>
      match inlineHtml? t.source t.content (start - 1) with
      | some (stop, content) =>
        (p.push (.html content ⟨extent.start, stop⟩), tokensBehind stop rest)
      | none => (p.push (.text extent), rest)

/-- The pieces of tokens, after the pieces so far. -/
def piecesFrom (t : TextSource) : Nat → List Token → PieceStack → PieceStack
  | 0, _, p => p
  | _ + 1, [], p => p
  | fuel + 1, ⟨kind, extent⟩ :: rest, p =>
    let (p, rest) :=
      match kind with
      | .text => (p.push (.text extent), rest)
      | .reference text => (p.push (.reference text extent), rest)
      | .marks mark opens closes => (p.push (.marks mark opens closes extent), rest)
      | .softBreak => (p.push (.softBreak extent), rest)
      | .hardBreak backslash => (p.push (.hardBreak backslash extent), rest)
      | .ticks escaped => readTicks t escaped extent rest p
      | .angle => readAngle t extent rest p
      | .opener isImage => (p.enter isImage extent, rest)
      | .closer mayRefer => closeBracket t extent mayRefer rest p
    piecesFrom t fuel rest p

/-- The pieces of a text. -/
def pieces (t : TextSource) (tokens : List Token) : List Piece :=
  (piecesFrom t tokens.length tokens {}).finish

end MarkdownSpans
