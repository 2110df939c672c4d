import MarkdownSpans.Config.Basic
import MarkdownSpans.Reader.Markdown
import MarkdownSpans.Render.Pass
import MarkdownSpans.Render.Rules

/-!
# Rendering under a configuration
-/

namespace MarkdownSpans

/-- The pass that a configuration describes: the standard rules under its options and its filter. -/
def Config.pass (c : Config) : Pass :=
  { rules := .standard, options := c.render, interceptor := some c.filter.interceptor }

/-- What a markdown text is rendered to. -/
def Config.renderMarkdown (c : Config) (source : String) : Except RenderError RichText :=
  (c.pass.run (.parse source c.parser knownEmoji)).result

end MarkdownSpans
