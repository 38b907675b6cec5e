import ShapeMatch.CommandLine

/-!
# The program

Reads the files that the arguments name, and prints the response to them.
-/

namespace ShapeMatch

/-- The number of the system error behind a failure, and its text. -/
def systemError (e : IO.Error) : FileError :=
  match e with
  | .noFileOrDirectory _ _ _ => .notFound
  | .inappropriateType _ 20 _ | .resourceExhausted _ 20 _ | .noSuchThing _ 20 _ => .notDirectory
  | .inappropriateType _ 21 _ | .illegalOperation 21 _ | .invalidArgument _ 21 _ => .isDirectory
  | e => .other (toString e)

/-- The content of a file, or why it cannot be read. -/
def readFile (path : String) : IO (Except FileError ByteArray) := do
  try
    return .ok (← IO.FS.readBinFile path)
  catch e =>
    return .error (systemError e)

/-- The files that arguments name. -/
def namedFiles (arguments : List String) : List String :=
  match parseArguments arguments with
  | .ok (.check r) => r.schema :: r.documents
  | _ => []

end ShapeMatch

open ShapeMatch in
/-- Responds to the arguments. -/
def main (arguments : List String) : IO UInt32 := do
  let contents ← (namedFiles arguments).mapM fun path => return (path, ← readFile path)
  let read : FileReader := fun path => (contents.lookup path).getD (.error .notFound)
  let response := respond read arguments
  IO.print response.output
  IO.eprint response.diagnostic
  return response.exitCode.toUInt32
