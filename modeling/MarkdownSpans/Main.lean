import MarkdownSpans.Command.Run

/-!
# The program

Runs the request of the command line on the files of the system.
-/

namespace MarkdownSpans

/-- The cause of a failure to read a file. -/
def FileError.ofFailure : IO.Error → FileError
  | .noFileOrDirectory .. => .noSuchFile
  | .inappropriateType .. => .notDirectory
  | failure => .other (toString failure)

/-- Access to the files of the system. -/
def systemFiles : FileAccess IO where
  read path := do
    try
      let bytes ← IO.FS.readBinFile path
      match String.fromUTF8? bytes with
      | some text => return .ok text
      | none => return .error .notText
    catch failure =>
      let isDirectory ← try (← IO.FS.realPath path).isDir catch _ => pure false
      return .error (if isDirectory then .isDirectory else .ofFailure failure)
  isFile path := do
    try
      let path ← IO.FS.realPath path
      return (← path.pathExists) && !(← path.isDir)
    catch _ => return false
  isPresent path := do
    try (← IO.FS.realPath path).pathExists catch _ => return false

/-- The surroundings of the running program. -/
def systemSurroundings : IO (Surroundings IO) := do
  return {
    files := systemFiles
    directory := (← IO.currentDir).toString
    input := do
      let bytes ← (← IO.getStdin).readBinToEnd
      match String.fromUTF8? bytes with
      | some text => return .ok text
      | none => return .error .notText }

end MarkdownSpans

/-- Run the request of the command line. -/
def main (arguments : List String) : IO UInt32 := do
  let report ← MarkdownSpans.runArguments arguments (← MarkdownSpans.systemSurroundings)
  IO.print report.output
  IO.eprint report.diagnostics
  return report.exitCode.toUInt32
