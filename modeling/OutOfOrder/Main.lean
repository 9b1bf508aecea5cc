import OutOfOrder.Command.Run

/-!
# The program

Reads the files that a command line may name, and prints what the command answers.
-/

namespace OutOfOrder

/-- A directory can be opened but not read, and only a path that cannot be opened is in the error. -/
def readFile (path : String) : IO (Except FileError String) := do
  try
    return textOfBytes (← IO.FS.readBinFile path)
  catch e =>
    match e with
    | .inappropriateType (some _) .. => return .error .notDirectory
    | .inappropriateType none .. => return .error .directory
    | .invalidArgument .. => return .error .nameTooLong
    | _ => return .error .missing

end OutOfOrder

open OutOfOrder

def main (arguments : List String) : IO UInt32 := do
  let texts ← (Command.paths arguments).mapM fun path => return (path, ← readFile path)
  let o := Command.answer (Files.among texts) arguments
  IO.print o.stdout
  (← IO.getStdout).flush
  IO.eprint o.stderr
  return UInt32.ofNat o.code
