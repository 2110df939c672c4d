import MarkdownSpans.Markup
import MarkdownSpans.Render.Program
import MarkdownSpans.Text.Quoted
import MarkdownSpans.Tree.Builder

/-!
# Configurations

A `Config` says how markdown is read and rendered and which raw tags are stripped on the way.
`Config.fault?` is the first of its settings that is out of bounds, and `Config.withOverrides`
replaces the settings that are given anew for one run.
-/

namespace MarkdownSpans

/-- The settings of a run. -/
structure Config where
  render : RenderOptions := {}
  parser : ParseOptions := {}
  /-- Whether all raw tags are stripped. -/
  stripAll : Bool := false
  /-- The names of the raw tags that are stripped, whatever their case. -/
  stripTags : List String := []
  /-- The file that the settings were read from. -/
  path : Option String := none
  deriving DecidableEq, Repr, Inhabited

/-- The settings that can be out of bounds. -/
inductive SettingFault where
  | renderDepthZero
  | renderDepthTooLarge
  | newlineAbsent
  | parserDepthOutOfRange
  | tagNameInvalid (name : String)
  deriving DecidableEq, Repr

/-- The greatest depth that a render may be allowed. -/
def maxRenderDepth : Nat := 10000

/-- The greatest depth that containers may be allowed. -/
def maxParserDepth : Nat := 1024

/-- The text of a fault. -/
def SettingFault.message : SettingFault → String
  | renderDepthZero => "render.max_depth must be greater than 0"
  | renderDepthTooLarge => "render.max_depth cannot exceed " ++ toString maxRenderDepth
  | newlineAbsent => "render.newline must be a line terminator"
  | parserDepthOutOfRange =>
    "parser.max_depth must be between 1 and " ++ toString maxParserDepth
  | tagNameInvalid name => "markup.strip_tags contains invalid tag name " ++ quoteText name

/-- Whether a text can be the name of a tag: letters, digits and hyphens, the first one a letter. -/
def isTagName (name : String) : Bool :=
  name.toList.head?.any Char.isAlpha && name.toList.all isTagChar

namespace Config

/-- The first fault in how markdown is rendered. -/
def renderFault? (c : Config) : Option SettingFault :=
  if c.render.maxDepth = 0 then some .renderDepthZero
  else if maxRenderDepth < c.render.maxDepth then some .renderDepthTooLarge
  else if c.render.newline.isAbsent then some .newlineAbsent
  else none

/-- The first fault in how markdown is read. -/
def parserFault? (c : Config) : Option SettingFault :=
  if 1 ≤ c.parser.maxDepth && c.parser.maxDepth ≤ maxParserDepth then none
  else some .parserDepthOutOfRange

/-- The first fault in which tags are stripped. -/
def markupFault? (c : Config) : Option SettingFault :=
  (c.stripTags.find? fun name => !isTagName name).map .tagNameInvalid

/-- The first fault of a configuration. -/
def fault? (c : Config) : Option SettingFault :=
  c.renderFault? <|> c.parserFault? <|> c.markupFault?

/-- Which raw tags are stripped. -/
def filter (c : Config) : MarkupFilter :=
  if c.stripAll then .stripAll
  else if c.stripTags.isEmpty then .keepAll
  else .stripTags c.stripTags

end Config

/-- Settings that hold for one run, whatever the configuration says. -/
structure Overrides where
  unit : Option OffsetUnit := none
  maxDepth : Option Nat := none
  stripAll : Option Bool := none
  keepCodeFences : Option Bool := none
  deriving DecidableEq, Repr, Inhabited

/-- A configuration with the given settings replaced. -/
def Config.withOverrides (c : Config) (o : Overrides) : Config :=
  { c with
    render :=
      { c.render with
        unit := o.unit.getD c.render.unit
        maxDepth := o.maxDepth.getD c.render.maxDepth
        keepCodeFences := o.keepCodeFences.getD c.render.keepCodeFences }
    stripAll := o.stripAll.getD c.stripAll }

end MarkdownSpans
