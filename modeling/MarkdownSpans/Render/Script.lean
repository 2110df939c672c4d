import MarkdownSpans.Render.Rules

/-!
# Scripted rules

A rule can be given as data: a list of steps that are run in order on the node at hand. A script
acts on a pass exactly as a built-in rule does, through the program that it stands for.
-/

namespace MarkdownSpans

/-- One step of a scripted rule. -/
inductive ScriptStep where
  | write (text : String)
  | writeChar (c : Char)
  | writeLine (newline : Newline)
  | writeDefaultLine
  | ensureLine
  | linesBefore (trivia : Trivia)
  | linesAfter (trivia : Trivia)
  | span (style : SpanStyle) (body : List ScriptStep)
  | indent (indent : Indent) (body : List ScriptStep)
  /-- Render what the node holds. -/
  | children
  /-- Write the text the node holds. -/
  | content
  /-- Render the node once more, by its own rule. -/
  | self
  /-- Run a standard rule on the node. -/
  | standard (kind : NodeKind)
  | intercept (tag : String)
  | setCompact (value : Bool)
  | setLast (value : Bool)
  | fail (error : RenderError)
  /-- Run steps and note their error, if they fail. -/
  | attempt (body : List ScriptStep)
  /-- Note the state of the pass. -/
  | probe
  deriving Inhabited

namespace Node

/-- What a node holds, rendered in order. -/
def childrenProgram : Node → Program
  | document d => .blocks d.blocks
  | item i => .blocks i.children
  | block (.paragraph inlines _) => .inlines inlines
  | block (.heading _ inlines _ _) => .inlines inlines
  | block (.list _ items _) => .all (items.map fun i => .render (.item i))
  | block (.quote _ children _) => .blocks children
  | block (.custom _ children inlines _ _) => .seq (.blocks children) (.inlines inlines)
  | inline (.emphasis _ _ children) => .inlines children
  | inline (.link _ _ _ children) => .inlines children
  | inline (.delimiter _ children) => .inlines children
  | inline (.custom _ _ children) => .inlines children
  | _ => .done

/-- The text a node holds. -/
def contentText : Node → String
  | inline (.literal content) => content
  | inline (.codeSpan content) => content
  | inline (.custom _ content _) => content
  | inline (.htmlInline tag) => tag
  | inline (.htmlEntity _ decoded) => decoded
  | block (.thematicBreak content _ _) => content
  | _ => ""

end Node

mutual

/-- What a step does to a node. -/
def ScriptStep.program (node : Node) : ScriptStep → Program
  | .write text => .write text
  | .writeChar c => .writeChar c
  | .writeLine newline => .writeLine newline
  | .writeDefaultLine => .writeDefaultLine
  | .ensureLine => .ensureLine
  | .linesBefore trivia => .linesBefore trivia
  | .linesAfter trivia => .linesAfter trivia
  | .span style body => .span style (scriptProgram node body)
  | .indent i body => .indent i (scriptProgram node body)
  | .children => node.childrenProgram
  | .content => .write node.contentText
  | .self => .render node
  | .standard kind => standardRule kind node
  | .intercept tag => .intercept tag fun handled => .note (.handled handled)
  | .setCompact value =>
    .observe fun view => .seq (.setCompact value) (.note (.oldCompact view.compact))
  | .setLast value => .observe fun view => .seq (.setLast value) (.note (.oldLast view.last))
  | .fail error => .fail error
  | .attempt body =>
    .attempt (scriptProgram node body) fun
      | some error => .note (.caught error)
      | none => .done
  | .probe => .observe fun view => .note (.probe node.kindName view)

/-- What a list of steps does to a node. -/
def scriptProgram (node : Node) : List ScriptStep → Program
  | [] => .done
  | step :: rest => .seq (step.program node) (scriptProgram node rest)

end

/-- The rule that runs a script. -/
def scriptRule (steps : List ScriptStep) : Rule := fun node => scriptProgram node steps

end MarkdownSpans
