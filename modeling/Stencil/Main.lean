import Stencil.CommandLine

/-!
# The program

Reads the files that a command line names and prints what the command brings
about.
-/

namespace Stencil

/-- What the system says about a file, in the words of the command line.  The
system gives the numbers of its errors with either sign. -/
def FileError.ofSystem : IO.Error → FileError
  | .noFileOrDirectory _ _ _ => .noSuchFile
  | .inappropriateType _ code _ =>
      if code = 20 ∨ code = 0 - 20 then .notDirectory else .isDirectory
  | .userError _ => .unreadable "stream did not contain valid UTF-8"
  | error => .unreadable (toString error)

def readSystemFile : FileReader IO := fun path => do
  try
    let text ← IO.FS.readFile path
    pure (.ok text)
  catch error =>
    pure (.error (FileError.ofSystem error))

end Stencil

/-- Run the program on the words of its command line. -/
def main (words : List String) : IO UInt32 := do
  let outcome ← Stencil.runCommandLine Stencil.readSystemFile words
  (← IO.getStdout).putStr outcome.output
  (← IO.getStderr).putStr outcome.errors
  pure outcome.exitCode.toUInt32
