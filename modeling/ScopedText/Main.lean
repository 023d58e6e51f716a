import ScopedText.Command

/-!
# The program

Reads the files that a command line names, and prints what `Command.run` answers.
-/

namespace ScopedText.Command

def namedFiles (arguments : List String) : List String :=
  match Request.ofArguments arguments with
  | .ok request => request.file :: request.grammarFile.toList
  | .error _ => []

def readFile? (name : String) : IO (Option String) := do
  try return some (← IO.FS.readFile name)
  catch _ => return none

/-- Prints an outcome; the result is the exit code. -/
def Outcome.print : Outcome → IO UInt32
  | .done output note => do
    IO.print output
    IO.eprint note
    return 0
  | .noText => do
    IO.eprintln "Error: No such file or directory (os error 2)"
    return 1
  | .failed cause => do
    IO.eprintln ("Error: " ++ cause.message)
    return 1
  | .refused .help => do
    IO.print help
    return 0
  | .refused .usage => do
    IO.eprintln "Usage: scoped-text [OPTIONS] <FILE>"
    return 2

end ScopedText.Command

def main (arguments : List String) : IO UInt32 := do
  let files ← (ScopedText.Command.namedFiles arguments).mapM fun name => do
    return (name, ← ScopedText.Command.readFile? name)
  (ScopedText.Command.run (fun name => (files.lookup name).join) arguments).print
