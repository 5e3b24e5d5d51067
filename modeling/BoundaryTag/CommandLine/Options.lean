import BoundaryTag.Config
import BoundaryTag.Heap.Basic

/-!
# Options

What the program is asked to do: which traces to replay, on heaps of which kind, and how much of it
to log.
-/
namespace BoundaryTag.CommandLine

structure Options where
  /-- Paths of the traces, in order. -/
  traces : List String
  /-- Whether the validator runs around every operation. -/
  check : Bool := false
  chunkSize : Nat := 4096
  /-- The capacity of the arenas. -/
  maxHeap : Nat := Arena.defaultCapacity
  /-- How many blocks that are large enough a search for a fit looks at. -/
  candidates : Nat := 9
  /-- Whether the arenas are mappings. -/
  mapped : Bool := false
  /-- Whether each heap is shown after its trace. -/
  dump : Bool := false
  /-- How often the log was asked to say more. -/
  verbosity : Nat := 0
deriving DecidableEq, Repr

namespace Options

def config (options : Options) : Config where
  chunkSize := options.chunkSize
  maxHeap := options.maxHeap
  fitCandidates := options.candidates
  checkHeap := options.check

/-- The least severe level that is logged unless the system has rules of its own. -/
def threshold (options : Options) : Level :=
  match options.verbosity with
  | 0 => .warn
  | 1 => .debug
  | _ => .trace

end Options

end BoundaryTag.CommandLine
