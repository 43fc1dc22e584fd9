import TableauSimplex.CommandLine.Program

/-!
# The command line

The outer layer: it reads the model file, prints what the program puts out, and ends with its exit
code. There is no plotting device here, so that drawings are not shown.
-/

open TableauSimplex CommandLine

/-- How the program is called. -/
def usage : String :=
  "usage: tableau-lp [-h] [--sense MAX_OR_MIN] [--no-verbose] [--M M] [--max-iterations N] " ++
    "[--max-nodes N] [--integer] [--dual] [--json-output] [--graph] [--log-level LEVEL] json"

/-- The fault that an error of the system stands for. -/
def faultOf : IO.Error → FileFault
  | .permissionDenied .. => .denied
  | .inappropriateType _ 20 _ => .notDirectory
  | .inappropriateType .. => .isDirectory
  | .invalidArgument _ 36 _ => .nameTooLong
  | _ => .missing

/-- The content of a file, or why there is none. -/
def readFile (path : String) : IO (Except FileFault String) := do
  try
    return .ok (← IO.FS.readFile (Text.plain path))
  catch e =>
    return .error (faultOf e)

/-- Prints an outcome and gives the exit code. -/
def conclude : Outcome → IO UInt32
  | .finished output => do
    IO.eprint (Text.plain output.messages)
    IO.print (Text.plain output.text)
    return output.exitCode.toUInt32
  | .refused => do
    IO.eprintln usage
    return 2
  | .help => do
    IO.println usage
    return 0
  | .failed cause text => do
    IO.print (Text.plain text)
    IO.eprintln (Text.plain cause.message)
    return 1

def main (words : List String) : IO UInt32 := do
  let texts := words.map Text.ofPlain
  match Options.ofWords texts with
  | .solve options => conclude (runOptions options (← readFile options.path))
  | _ => conclude (run texts fun _ => .error .missing)
