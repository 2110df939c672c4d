import MarkdownSpans.Text.Space
import MarkdownSpans.Text.Split

/-!
# Paths

A path is a text in which `/` separates names. `ancestors` lists the directories above a path as its
text gives them: links are not followed, and `..` is a name like any other.
-/

namespace MarkdownSpans.Path

/-- The parts of a path between its separators. -/
def parts (path : String) : List String := (splitAtChar '/' path.toList).map String.ofList

/-- Whether a part stays in the directory it is looked up in. -/
def stays (part : String) : Bool := part == "" || part == "."

/-- Whether a path starts at the root. -/
def isAbsolute (path : String) : Bool := path.toList.head? == some '/'

/-- A path below another one; an absolute path stays as it is. -/
def join (base path : String) : String :=
  if isAbsolute path || base.isEmpty then path
  else if base.toList.getLast? == some '/' then base ++ path
  else base ++ "/" ++ path

/-- The directory above a path. The root and the empty path have none. -/
def parent? (path : String) : Option String :=
  let root := if isAbsolute path then "/" else ""
  let names := if isAbsolute path then (parts path).drop 1 else parts path
  match (dropRightWhile stays names).reverse with
  | [] => none
  | _ :: above => some (root ++ "/".intercalate (dropRightWhile stays above.reverse))

/-- A path and at most `count` directories above it, the nearest first. -/
def ancestorsUpTo : (count : Nat) → String → List String
  | 0, path => [path]
  | count + 1, path =>
    match parent? path with
    | none => [path]
    | some above => path :: ancestorsUpTo count above

/-- A path and the directories above it, the nearest first. -/
def ancestors (path : String) : List String := ancestorsUpTo (parts path).length path

end MarkdownSpans.Path
