import MarkdownSpans.Config.Basic

/-!
# Listing settings

`Config.settings` lists each setting by its section and name with its value as text.
-/

namespace MarkdownSpans

/-- The name of a unit as a setting. -/
def OffsetUnit.setting : OffsetUnit → String
  | utf16 => "Utf16"
  | utf8 => "Utf8"
  | chars => "Chars"

/-- The name of a policy as a setting. -/
def UnknownNodePolicy.setting : UnknownNodePolicy → String
  | error => "Error"
  | skip => "Skip"

/-- The settings in a fixed order. -/
def Config.settings (c : Config) : List (String × String) :=
  [("render.offset_encoding", c.render.unit.setting),
    ("render.max_depth", toString c.render.maxDepth),
    ("render.unknown_nodes", c.render.unknownNodes.setting),
    ("render.newline", quoteText c.render.newline.text),
    ("render.keep_code_fences", toString c.render.keepCodeFences),
    ("parser.strikethrough", toString c.parser.strikethrough),
    ("parser.emoji", toString c.parser.emoji),
    ("parser.max_depth", toString c.parser.maxDepth),
    ("markup.strip_all", toString c.stripAll),
    ("markup.strip_tags", quoteTexts c.stripTags)]

end MarkdownSpans
