import BoundaryTag.CommandLine.Options
import BoundaryTag.Trace.Parser

/-!
# Command line arguments

Options start with a minus sign and may stand before, between and behind the traces. A long option
takes its value from the next argument or from behind an equals sign; short options may share one
minus sign. After a lone `--` every argument is a trace. Only `-v` may be repeated.

Arguments are read from left to right, and the first that settles the outcome does: a mistake, or a
request to print something instead of replaying.
-/
namespace BoundaryTag.CommandLine

/-- The options that are either given or not. -/
inductive Switch where
  | check
  | mapped
  | dump
deriving DecidableEq, Repr

/-- The options that take a value. -/
inductive Setting where
  | chunkSize
  | maxHeap
  | candidates
deriving DecidableEq, Repr

def Setting.named? (name : String) : Option Setting :=
  match name with
  | "chunk-size" => some .chunkSize
  | "max-heap" => some .maxHeap
  | "candidates" => some .candidates
  | _ => none

/-- What the arguments have given so far. -/
structure Given where
  /-- Paths of the traces, in order. -/
  traces : List String := []
  /-- The switches given, each once. -/
  switches : List Switch := []
  /-- The values given, at most one for each setting. -/
  values : List (Setting × Nat) := []
  verbosity : Nat := 0
deriving DecidableEq, Repr

/-- Why no traces are replayed. -/
inductive Halt where
  | usage
  | version
  | help
deriving DecidableEq, Repr

def Halt.exitCode : Halt → Nat
  | .usage => 2
  | .version | .help => 0

/-- What is printed in place of a table. The wording of the help is left open. -/
def Halt.output : Halt → String
  | .version => "segalloc 0.1.0\n"
  | .usage | .help => ""

namespace Given

def has (given : Given) (switch : Switch) : Bool :=
  given.switches.contains switch

/-- The value of a setting, if one is given. -/
def value? (given : Given) (setting : Setting) : Option Nat :=
  given.values.lookup setting

/-- The options that are asked for; those not given are as they are by default. -/
def options (given : Given) : Options :=
  let default : Options := { traces := given.traces }
  { default with
    check := given.has .check
    chunkSize := (given.value? .chunkSize).getD default.chunkSize
    maxHeap := (given.value? .maxHeap).getD default.maxHeap
    candidates := (given.value? .candidates).getD default.candidates
    mapped := given.has .mapped
    dump := given.has .dump
    verbosity := given.verbosity }

/-- Takes a switch that has not been given before. -/
def takeSwitch (given : Given) (switch : Switch) : Except Halt Given :=
  if given.has switch then .error .usage
  else .ok { given with switches := switch :: given.switches }

/-- Takes a value, which must be a number, for a setting that has none yet. -/
def takeValue (given : Given) (setting : Setting) (value : String) : Except Halt Given :=
  match given.value? setting, Trace.word? value.toList with
  | none, some number => .ok { given with values := (setting, number) :: given.values }
  | _, _ => .error .usage

/-- Asks the log to say more. -/
def raiseVerbosity (given : Given) : Given :=
  { given with verbosity := given.verbosity + 1 }

/-- Takes a path, which must have characters. -/
def takePath (given : Given) (path : String) : Except Halt Given :=
  if path = "" then .error .usage else .ok { given with traces := given.traces ++ [path] }

end Given

def takeLongFlag (given : Given) (name : String) : Except Halt Given :=
  match name with
  | "check" => given.takeSwitch .check
  | "mapped" => given.takeSwitch .mapped
  | "dump" => given.takeSwitch .dump
  | "verbose" => .ok given.raiseVerbosity
  | "version" => .error .version
  | "help" => .error .help
  | _ => .error .usage

def takeShortFlag (given : Given) (flag : Char) : Except Halt Given :=
  match flag with
  | 'c' => given.takeSwitch .check
  | 'v' => .ok given.raiseVerbosity
  | 'V' => .error .version
  | 'h' => .error .help
  | _ => .error .usage

/-- What an argument is, by its first characters. A lone minus sign is a path. -/
inductive Argument where
  /-- Only traces follow. -/
  | endOfOptions
  /-- A long option without a value of its own. -/
  | long (name : String)
  /-- A long option with the value behind its equals sign. -/
  | longWith (name value : String)
  | short (flags : List Char)
  /-- Anything else. -/
  | plain (text : String)
deriving DecidableEq, Repr

/-- Tells what an argument is. -/
def Argument.ofString (argument : String) : Argument :=
  match argument.toList with
  | ['-', '-'] => .endOfOptions
  | '-' :: '-' :: rest =>
    match rest.dropWhile (· != '=') with
    | [] => .long (String.ofList rest)
    | _ :: value => .longWith (String.ofList (rest.takeWhile (· != '='))) (String.ofList value)
  | '-' :: flag :: flags => .short (flag :: flags)
  | _ => .plain argument

/-- Takes arguments that are all paths. -/
def takePaths (given : Given) (arguments : List String) : Except Halt Given :=
  arguments.foldlM Given.takePath given

/-- Takes arguments from left to right. -/
def takeArguments (given : Given) (arguments : List String) : Except Halt Given :=
  match arguments with
  | [] => .ok given
  | argument :: rest =>
    match Argument.ofString argument with
    | .endOfOptions => takePaths given rest
    | .plain path => do takeArguments (← given.takePath path) rest
    | .short flags => do takeArguments (← flags.foldlM takeShortFlag given) rest
    | .longWith name value =>
      match Setting.named? name with
      | some setting => do takeArguments (← given.takeValue setting value) rest
      | none => .error .usage
    | .long name =>
      match Setting.named? name with
      | none => do takeArguments (← takeLongFlag given name) rest
      | some setting =>
        -- The value is the next argument, which must not look like an option.
        match rest with
        | [] => .error .usage
        | value :: rest =>
          match Argument.ofString value with
          | .plain value => do takeArguments (← given.takeValue setting value) rest
          | _ => .error .usage

/-- Reads a command line, which has to name a trace. -/
def parse (arguments : List String) : Except Halt Options := do
  let given ← takeArguments {} arguments
  if given.traces.isEmpty then throw .usage
  return given.options

end BoundaryTag.CommandLine
