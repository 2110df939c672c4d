import MarkdownSpans.Render.RuleSet
import MarkdownSpans.Text.Decimal

/-!
# The standard rules

One rule for each built-in kind of node. A block writes its blank lines before, its content and its
blank lines after; lists and quotes put leads before the lines of their content; emphasis, code and
links open spans.
-/

namespace MarkdownSpans

/-- The style of emphasis by its delimiter; text between other delimiters has none. -/
def emphasisStyle? : Char → Option SpanKind
  | '*' => some .bold
  | '_' => some .italic
  | '~' => some .strikethrough
  | _ => none

/-- The character that closes a title. -/
def titleCloser (opener : Char) : Char := if opener = '(' then ')' else opener

namespace Inline

/-- The target of an autolink. -/
def autolinkTarget (url : String) (isEmail : Bool) : String :=
  if isEmail then "mailto:" ++ url else url

/-- The standard rules of inlines. -/
def program : Inline → Program
  | literal content => .write content
  | emphasis mark _ children =>
    match emphasisStyle? mark with
    | some kind => .span { kind } (.inlines children)
    | none => .inlines children
  | codeSpan content => .span { kind := .code } (.write content)
  | autolink url isEmail =>
    .span { kind := .url, url := some (autolinkTarget url isEmail) } (.write url)
  | link url _ _ children => .span { kind := .url, url := some url } (.inlines children)
  | lineBreak newline _ => .writeLine newline
  | htmlInline tag => .intercept tag fun handled => if handled then .done else .write tag
  | htmlEntity spelling _ => .write spelling
  | delimiter text children => .seq (.write text) (.inlines children)
  | custom .. => .done

end Inline

namespace Program

/-- The number of the first item: what the start says, if that is a number of 64 bits. -/
def firstIndex (style : ListStyle) : Nat :=
  if style.isDecimal then (style.start.bind word?).getD 0 else 0

/-- The number after one; the greatest number of 64 bits is its own successor. -/
def nextIndex (style : ListStyle) (index : Nat) : Nat :=
  if style.isDecimal then min (index + 1) maxWord else index

/-- The width of the marker of an item, with the space after it. -/
def markerWidth (style : ListStyle) (index : Nat) : Nat :=
  if style.ordered then digitCount index + 2 else 2

/-- The marker of an item and the space after it. -/
def marker (style : ListStyle) (index : Nat) : Program :=
  seq
    (if style.ordered then seq (write (toString index)) (writeChar style.delimiter)
      else writeChar style.bullet)
    (writeChar ' ')

/-- What sets an item apart from the next one. -/
def separator (style : ListStyle) (isLast : Bool) : Program :=
  if style.loose && !isLast then seq ensureLine writeDefaultLine else done

/-- The items of a list, the first of which has this number. -/
def items (style : ListStyle) : Nat → List ListItem → Program
  | _, [] => done
  | index, item :: rest =>
    all [ensureLine, marker style index,
      indent (.spaces (markerWidth style index)) (render (.item item)),
      withLast rest.isEmpty (linesAfter item.trivia), separator style rest.isEmpty,
      items style (nextIndex style index) rest]

/-- A list. -/
def list (style : ListStyle) (entries : List ListItem) (trivia : Trivia) : Program :=
  all [ensureLine,
    withCompact (!style.loose)
      (seq (linesBefore trivia) (items style (firstIndex style) entries)),
    linesAfter trivia]

/-- The terminators of a quote without content, one for each of its lines. -/
def terminators : List QuoteLine → Program
  | [] => done
  | line :: rest => seq (writeLine line.newline) (terminators rest)

/-- A program with the lines of a quote put before its lines. In the middle of a line the first of
them belongs to the current line. -/
def quoted (leads : List String) (body : Program) : Program :=
  observe fun view =>
    if view.atLineStart then indent (.ofLeads leads) body
    else
      seq (write (Indent.ofLeads leads).lead) (indent (Indent.ofLeads leads).advance body)

/-- A quote. Nothing in a quote without blocks would write its leads, so it ends each of its lines;
such a quote has no blank lines after it. -/
def quote (recorded : List QuoteLine) (children : List Block) (trivia : Trivia) : Program :=
  all [linesBefore trivia, write trivia.before,
    quoted (recorded.map (·.lead))
      (if children.isEmpty then terminators recorded else blocks children),
    if children.isEmpty then done else linesAfter trivia]

/-- A heading. -/
def heading (level : Nat) (content : List Inline) (newline : Newline) (trivia : Trivia) : Program :=
  all [linesBefore trivia, write (String.ofList (List.replicate level '#')), writeChar ' ',
    inlines content, writeLine newline, linesAfter trivia]

/-- A block of code. Its lines make a span; fences are written if the options say so. -/
def codeBlock (content : List Line) (fence : Option Fence) (trivia : Trivia) : Program :=
  observe fun view =>
    let kept := fence.filter fun _ => view.options.keepCodeFences
    all [linesBefore trivia, write trivia.before,
      lines (kept.toList.map (·.opening)),
      span { kind := .pre, language := fence.bind (·.language?) } (lines content),
      lines (kept.bind (·.closing)).toList,
      write trivia.after, linesAfter trivia]

/-- The lines of raw markup; one without terminator gets the default one. -/
def htmlLines : List Line → Program
  | [] => done
  | line :: rest =>
    all [write line.text,
      if line.newline.isAbsent then writeDefaultLine else writeLine line.newline,
      htmlLines rest]

/-- The title of a link definition between its delimiters. -/
def title (definition : LinkDefinition) : Program :=
  match definition.title with
  | some text =>
    all [writeChar definition.titleDelimiter, write text,
      writeChar (titleCloser definition.titleDelimiter)]
  | none => done

/-- The address of a link definition. -/
def address (definition : LinkDefinition) : Program :=
  if definition.urlInAngleBrackets then
    all [writeChar '<', write definition.url, writeChar '>']
  else
    write definition.url

/-- A link definition, put together from its parts. -/
def linkDefinition (d : LinkDefinition) : Program :=
  all [linesBefore d.trivia, write d.trivia.before, writeChar '[', write d.label, write "]:",
    write d.beforeUrl, address d, write d.beforeTitle, title d, write d.trivia.after,
    writeLine d.newline, linesAfter d.trivia]

end Program

/-- The standard rules of blocks. -/
def Block.program : Block → Program
  | paragraph inlines trivia =>
    .all [.linesBefore trivia, .write trivia.before, .inlines inlines, .linesAfter trivia]
  | heading level inlines newline trivia => .heading level inlines newline trivia
  | codeBlock lines fence trivia => .codeBlock lines fence trivia
  | list style items trivia => .list style items trivia
  | quote lines children trivia => .quote lines children trivia
  | thematicBreak content newline trivia =>
    .all [.linesBefore trivia, .write content, .writeLine newline, .linesAfter trivia]
  | htmlBlock lines trivia => .all [.linesBefore trivia, .htmlLines lines, .linesAfter trivia]
  | linkDefinition d => .linkDefinition d
  | linkDefinitionGroup definitions trivia =>
    .seq (.blocks (definitions.map .linkDefinition)) (.linesAfter trivia)
  | emptyBlock trivia => .linesAfter trivia
  | custom .. => .done

/-- The standard rule of a node of the kind it is. -/
def Node.program : Node → Program
  | document d => .blocks d.blocks
  | block b => b.program
  | item i => .seq (.linesBefore i.trivia) (.blocks i.children)
  | inline i => i.program

/-- The standard rule of a kind, which renders no node of another kind. -/
def standardRule (kind : NodeKind) : Rule := fun node =>
  if node.kind = kind then node.program else .fail (.ruleMismatch kind node.kindName)

/-- The standard rules: one for every built-in kind, none for extensions. -/
def RuleSet.standard : RuleSet where
  rule? kind :=
    match kind with
    | .customBlock | .customInline => none
    | kind => some (standardRule kind)
  custom? _ := none

end MarkdownSpans
