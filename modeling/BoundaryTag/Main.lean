import BoundaryTag.CommandLine.Arguments
import BoundaryTag.CommandLine.Session

/-!
# The program

Reads the files that the command line names, runs the session, and prints what it leaves behind.
-/
namespace BoundaryTag

/-- Reads a file as text. -/
def readFile (path : String) : IO (Except FileError String) := do
  try
    return decodeText (← IO.FS.readBinFile path)
  catch error =>
    match error with
    | .noFileOrDirectory .. => return .error .missing
    | .inappropriateType _ code _ =>
      return .error (if code = 21 then .isDirectory else .notDirectory)
    | .invalidArgument _ 36 _ => return .error .nameTooLong
    | _ => return .error (.other (toString error))

/-- What a session meets when the files have been read, each in its turn. Mappings are only
imitated: there is room for them in half of the addresses of the machine. -/
def systemOf (contents : Array (Except FileError String)) : CommandLine.System where
  read turn _ := contents.getD turn (.error .missing)
  map _ := .below 0x800000000000 Arena.pageSize "Cannot allocate memory (os error 12)"
  filter? := none

end BoundaryTag

open BoundaryTag in
/-- Runs the program. -/
def main (arguments : List String) : IO UInt32 := do
  match CommandLine.parse arguments with
  | .error halt =>
    IO.print halt.output
    return UInt32.ofNat halt.exitCode
  | .ok options =>
    let contents ← options.traces.toArray.mapM readFile
    let outcome := CommandLine.run options (systemOf contents)
    IO.print outcome.output
    outcome.errors.forM fun notice => IO.eprintln notice.text
    return UInt32.ofNat outcome.exitCode
