import MarkdownSpans.Files.Access
import MarkdownSpans.Files.Path

/-!
# Trees of files in memory

A `FileTree` holds files by the names on the way to them. Paths are looked up part by part, so `..`
leads back only from a directory that is there.
-/

namespace MarkdownSpans

/-- Files with their texts, and directories that may be empty. -/
structure FileTree where
  files : List (List String × String) := []
  directories : List (List String) := []
  deriving DecidableEq, Repr, Inhabited

namespace FileTree

/-- The text of the file that is reached by names. -/
def file? (t : FileTree) (names : List String) : Option String := t.files.lookup names

/-- Whether a directory is reached by names: the root, one that is listed, or one above what is
listed. -/
def isDirectory (t : FileTree) (names : List String) : Bool :=
  names.isEmpty || t.directories.any names.isPrefixOf ||
    t.files.any fun (file, _) => file.length ≠ names.length && names.isPrefixOf file

/-- The names by which the parts of a path lead on from a directory. -/
def walk (t : FileTree) : List String → List String → Except FileError (List String)
  | names, [] => .ok names
  | names, part :: rest =>
    if Path.stays part then t.walk names rest
    else if part == ".." then t.walk names.dropLast rest
    else
      let next := names ++ [part]
      if t.isDirectory next then t.walk next rest
      else if (t.file? next).isNone then .error .noSuchFile
      else if rest.isEmpty then .ok next
      else .error .notDirectory

/-- The names by which a path leads on from a directory. -/
def resolve (t : FileTree) (directory : List String) (path : String) :
    Except FileError (List String) :=
  if path.isEmpty then .error .noSuchFile
  else t.walk (if Path.isAbsolute path then [] else directory) (Path.parts path)

/-- The text of the file at a path. -/
def read (t : FileTree) (directory : List String) (path : String) : Except FileError String := do
  let names ← t.resolve directory path
  match t.file? names with
  | some text => .ok text
  | none => .error .isDirectory

/-- Access to a tree in which paths start at a directory. -/
def access (t : FileTree) (directory : List String) : FileAccess Id where
  read path := t.read directory path
  isFile path := (t.read directory path).toBool
  isPresent path := (t.resolve directory path).toBool

end FileTree

end MarkdownSpans
