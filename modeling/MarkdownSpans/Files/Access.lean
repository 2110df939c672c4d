/-!
# Access to files

What the program asks of a file system. The effect in which the answers are given is left open:
a tree of files in memory answers at once, the system the program runs on answers in `IO`.
-/

namespace MarkdownSpans

/-- Why a file cannot be read. -/
inductive FileError where
  | noSuchFile
  | notDirectory
  | isDirectory
  /-- The bytes of the file are no text. -/
  | notText
  | other (message : String)
  deriving DecidableEq, Repr

/-- The text of an error. -/
def FileError.message : FileError → String
  | noSuchFile => "No such file or directory (os error 2)"
  | notDirectory => "Not a directory (os error 20)"
  | isDirectory => "Is a directory (os error 21)"
  | notText => "stream did not contain valid UTF-8"
  | other message => message

/-- The questions that a file system answers about paths. -/
structure FileAccess (m : Type → Type) where
  /-- The text of a file. -/
  read : String → m (Except FileError String)
  /-- Whether there is a file. -/
  isFile : String → m Bool
  /-- Whether there is a file or a directory. -/
  isPresent : String → m Bool

end MarkdownSpans
