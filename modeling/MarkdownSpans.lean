import MarkdownSpans.Files.Tree
import MarkdownSpans.Main
import MarkdownSpans.Render.Script
import MarkdownSpans.Proofs.Output.Growth
import MarkdownSpans.Proofs.Render.Extent
import MarkdownSpans.Proofs.Text.Piece
import MarkdownSpans.Proofs.Render.Spans
import MarkdownSpans.Proofs.Render.Dispatch
import MarkdownSpans.Proofs.Render.Restoration
import MarkdownSpans.Proofs.Document.Nesting
import MarkdownSpans.Proofs.Render.Nested
import MarkdownSpans.Proofs.Tree.DepthCap
import MarkdownSpans.Proofs.Tree.Deepest
import MarkdownSpans.Proofs.Render.Fault
import MarkdownSpans.Proofs.Tree.Place
import MarkdownSpans.Proofs.Tree.EventTree
import MarkdownSpans.Proofs.Tree.InlineRun
import MarkdownSpans.Proofs.Tree.Translation
import MarkdownSpans.Proofs.Output.Page
import MarkdownSpans.Proofs.Render.Neat
import MarkdownSpans.Proofs.Render.Indented
import MarkdownSpans.Proofs.Render.IndentedBlocks
import MarkdownSpans.Proofs.Tree.Reread
import MarkdownSpans.Proofs.Tree.LinePlace
import MarkdownSpans.Proofs.Tree.Layout
import MarkdownSpans.Proofs.Tree.LayoutRun
import MarkdownSpans.Proofs.Render.Spelled
import MarkdownSpans.Proofs.Text.EmojiSplit
import MarkdownSpans.Proofs.Tree.Reading
import MarkdownSpans.Proofs.Tree.TextSplit
import MarkdownSpans.Proofs.Tree.BulletRun
import MarkdownSpans.Proofs.Render.Laid
import MarkdownSpans.Proofs.Render.BulletLines
import MarkdownSpans.Proofs.Tree.NestedQuote
import MarkdownSpans.Proofs.Render.NestedQuote
import MarkdownSpans.Proofs.Tree.FencedCode
import MarkdownSpans.Proofs.Render.FencedCode
import MarkdownSpans.Proofs.Render.Reprint
import MarkdownSpans.Proofs.Document.Groups
import MarkdownSpans.Proofs.Tree.Forest
import MarkdownSpans.Proofs.Tree.Filling
import MarkdownSpans.Proofs.Tree.Placed
import MarkdownSpans.Proofs.Tree.DefinitionOrder
import MarkdownSpans.Proofs.Tree.Pruning
import MarkdownSpans.Proofs.Tree.LeafShape
import MarkdownSpans.Proofs.Tree.Following
import MarkdownSpans.Proofs.Tree.Folding
import MarkdownSpans.Proofs.Document.Marks
import MarkdownSpans.Proofs.Render.Plain
import MarkdownSpans.Proofs.Render.StyledSpans
import MarkdownSpans.Proofs.Render.Units
import MarkdownSpans.Proofs.Tree.SpacedList
import MarkdownSpans.Proofs.Render.SpacedList
import MarkdownSpans.Proofs.Tree.Bounded
import MarkdownSpans.Proofs.Tree.LastBlock
import MarkdownSpans.Proofs.Render.Trailing
import MarkdownSpans.Proofs.Tree.ClosedDefinition
import MarkdownSpans.Proofs.Render.Congruence
import MarkdownSpans.Proofs.Render.DefinitionSource
import MarkdownSpans.Proofs.Document.Extensions
import MarkdownSpans.Proofs.Render.Skipped
import MarkdownSpans.Proofs.Document.Tags
import MarkdownSpans.Proofs.Render.Intercepted
import MarkdownSpans.Proofs.Tree.LedLines
import MarkdownSpans.Proofs.Tree.QuotedParagraphs
import MarkdownSpans.Proofs.Render.Edits
import MarkdownSpans.Proofs.Render.QuotedParagraphs
import MarkdownSpans.Proofs.Text.EmojiWords
import MarkdownSpans.Proofs.Render.Reach
import MarkdownSpans.Proofs.Render.Separator
import MarkdownSpans.Proofs.Render.ListLines
import MarkdownSpans.Proofs.Document.Restyled
import MarkdownSpans.Proofs.Render.Restyled
import MarkdownSpans.Proofs.Config.TagNames
import MarkdownSpans.Proofs.Text.CanonicalLines
import MarkdownSpans.Proofs.Render.ChildlessQuote
import MarkdownSpans.Proofs.Output.SpanTable
import MarkdownSpans.Proofs.Output.Operation
import MarkdownSpans.Proofs.Tree.PlacedLines
import MarkdownSpans.Proofs.Document.InlineLists
import MarkdownSpans.Proofs.Tree.Moves
import MarkdownSpans.Proofs.Tree.OpenLeaf
import MarkdownSpans.Proofs.Tree.FrameStack
import MarkdownSpans.Proofs.Tree.JoinedInlines
