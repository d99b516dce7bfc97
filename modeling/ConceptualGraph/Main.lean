/-
Module: ConceptualGraph.Main
Purpose: The program: reads the files that the arguments name and prints what the
  command answers.
Main exports: main
-/
import ConceptualGraph.Command

namespace ConceptualGraph.Command

/-- The content of a file, or why it cannot be read. -/
def readFile (file : String) : IO (Except IoError ByteArray) := do
  try
    return .ok (← IO.FS.readBinFile file)
  catch error =>
    match error with
    | .noFileOrDirectory .. => return .error .notFound
    | other => return .error (.other other.toString)

/-- The files that the arguments name, read one after the other. -/
def readFiles (args : List String) : IO FileSystem := do
  let names :=
    match Request.ofArgs? args with
    | .ok request => request.files
    | .error _ => []
  let contents ← names.mapM fun name => do return (name, ← readFile name)
  return fun name => (contents.lookup name).getD (.error .notFound)

end ConceptualGraph.Command

/-- Runs the command on its arguments. -/
def main (args : List String) : IO UInt32 := do
  let files ← ConceptualGraph.Command.readFiles args
  let outcome := ConceptualGraph.Command.run files args
  (← IO.getStdout).putStr outcome.stdout
  (← IO.getStderr).putStr outcome.stderr
  return UInt32.ofNat outcome.exit
