/-
# The program

Reads the file that the arguments name, if they name one, and prints what the command line gives.

Everything else is decided in `CommandLine.run`, a function from arguments and the contents of files
to lines and an exit status.  What is left to this outer layer is what that function cannot do:

* `catalogueContents` reads the file of the index catalogue.  The arguments are read once more to
  find out its name, which costs little and keeps `run` free of input.  Where no file is named, the
  contents are empty and never looked at.
* `fileFault` turns a failure of the file system into an error of the project.  The two that occur
  in practice have the wording that the operating system gives them.
* `main` prints the lines, those of a failure to the second output, and passes on the status.

Whatever is proved about the program is proved about `CommandLine.run`.
-/
import BandMath.CommandLine.Run

open BandMath BandMath.CommandLine

/-- How a file that cannot be read is reported. -/
def fileFault : IO.Error → Error
  | .noFileOrDirectory .. => .unreadable "No such file or directory (os error 2)"
  | .permissionDenied .. => .unreadable "Permission denied (os error 13)"
  | e => .unreadable e.toString

/-- The contents of the file of the index catalogue. -/
def catalogueContents (arguments : List String) : IO (Except Error String) := do
  match Request.ofArguments arguments with
  | .run { registry := some path, .. } =>
    try return .ok (← IO.FS.readFile path)
    catch e => return .error (fileFault e)
  | _ => return .ok ""

/-- The command line. -/
def main (arguments : List String) : IO UInt32 := do
  let contents ← catalogueContents arguments
  let output := run (fun _ => contents) arguments
  output.out.forM IO.println
  output.err.forM IO.eprintln
  return output.status.toUInt32
