import SchemaTypes.CommandLine.Run

/-!
# The program

Reads the files that a run asks for, writes what it comes to, and ends with its code. Of what is not
worded by a run, only the texts of a failure are written.
-/

namespace SchemaTypes

/-- Reads the file at a path. Resolving the path tells whether something is there. -/
def readFile (path : String) : IO Files.Reading := do
  let isThere ←
    try
      discard (IO.FS.realPath path)
      pure true
    catch _ => pure false
  if isThere then
    try
      let bytes ← IO.FS.readBinFile path
      pure (.ofBytes bytes)
    catch _ => pure .unreadable
  else pure .missing

/-- The texts of a problem, each on a line of its own. -/
def problemText : CommandLine.Problem → String
  | .misuse _ => ""
  | .failure failure =>
    Text.joined "\n" (failure.message :: (failure.cause?.toList ++ failure.help?.toList)) ++ "\n"

end SchemaTypes

/-- Runs the program with its arguments. -/
def main (arguments : List String) : IO UInt32 := do
  let outcome ← SchemaTypes.CommandLine.run SchemaTypes.readFile arguments
  let problem := (outcome.problem.map SchemaTypes.problemText).getD ""
  (← IO.getStderr).putStr (outcome.warnings ++ problem)
  (← IO.getStdout).putStr outcome.output
  pure outcome.code.toUInt32
