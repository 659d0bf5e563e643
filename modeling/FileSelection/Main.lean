import FileSelection.CommandLine.Run
import FileSelection.FileSystem.Listing
import FileSelection.Ignore.Standard

/-!
# The command line

Reads the listing of a file system from the standard input and runs the words of the command line on
it.
-/

namespace FileSelection

partial def readAll (input : IO.FS.Stream) (before : String) : IO String := do
  let line ← input.getLine
  if line.isEmpty then return before else readAll input (before ++ line)

end FileSelection

open FileSelection in
def main (args : List String) : IO UInt32 := do
  let text ← readAll (← IO.getStdin) ""
  match FileSystem.ofListing? text with
  | none =>
      (← IO.getStderr).putStrLn "Error: malformed listing of the file system"
      return 2
  | some files =>
      let some transcript := CommandLine.run files args | return 0
      (← IO.getStdout).putStr transcript.output
      (← IO.getStderr).putStr transcript.errors
      match transcript.exit with
      | .ok status => return status.toUInt32
      | .error failure =>
          (← IO.getStderr).putStrLn failure.message
          return 1
