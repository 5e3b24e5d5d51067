import BoundaryTag.Trace.Parser

/-!
# Loading a trace

A trace from a path: the file has to be readable, and its text has to be a trace.
-/
namespace BoundaryTag

/-- Why a path cannot be read as text. -/
inductive FileError where
  | missing
  | isDirectory
  /-- The path goes on behind a file. -/
  | notDirectory
  /-- The path, or a part of it, is longer than paths and parts can be. -/
  | nameTooLong
  /-- The path has a character of code zero, which no path can have. -/
  | nulInName
  /-- The bytes of the file are no text. -/
  | invalidText
  /-- Anything else, in the words of the system. -/
  | other (description : String)
deriving DecidableEq, Repr

def FileError.message : FileError → String
  | .missing => "No such file or directory (os error 2)"
  | .isDirectory => "Is a directory (os error 21)"
  | .notDirectory => "Not a directory (os error 20)"
  | .nameTooLong => "File name too long (os error 36)"
  | .nulInName => "file name contained an unexpected NUL byte"
  | .invalidText => "stream did not contain valid UTF-8"
  | .other description => description

/-- The text that bytes encode in UTF-8. -/
def decodeText (bytes : ByteArray) : Except FileError String :=
  match String.fromUTF8? bytes with
  | some text => .ok text
  | none => .error .invalidText

/-- Why a path gives no trace. -/
inductive LoadError where
  | unreadable (source : FileError)
  | malformed (source : ParseError)
deriving DecidableEq, Repr

def LoadError.message : LoadError → String
  | .unreadable source => s!"failed to read trace: {source.message}"
  | .malformed source => source.message

/-- The trace in what was read. -/
def Trace.load (contents : Except FileError String) : Except LoadError Trace :=
  match contents with
  | .error source => .error (.unreadable source)
  | .ok text =>
    match Trace.parse text with
    | .error source => .error (.malformed source)
    | .ok trace => .ok trace

end BoundaryTag
