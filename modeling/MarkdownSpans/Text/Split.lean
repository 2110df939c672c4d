/-!
# Pieces between separators
-/

namespace MarkdownSpans

/-- The pieces of a list between separators; there is one more of them than of separators. -/
def splitAtChar (separator : Char) : List Char → List (List Char)
  | [] => [[]]
  | c :: rest =>
    if c == separator then
      [] :: splitAtChar separator rest
    else
      match splitAtChar separator rest with
      | [] => [[c]]
      | piece :: pieces => (c :: piece) :: pieces

end MarkdownSpans
