import BoundaryTag.Arena

/-!
# Heap configurations

The numbers that a heap is tuned by, and which of them a heap can work with.
-/
namespace BoundaryTag

/-- What a heap can be told about its work. -/
structure Config where
  /-- The least number of bytes by which the heap grows, and the size of its first free block. -/
  chunkSize : Nat := 4096
  /-- The capacity of an arena made for the heap. -/
  maxHeap : Nat := Arena.defaultCapacity
  /-- How many blocks that are large enough a search for a fit looks at. -/
  fitCandidates : Nat := 9
  /-- Whether the validator runs around every operation. -/
  checkHeap : Bool := false
deriving DecidableEq, Repr

/-- Why a heap cannot work with a configuration. -/
inductive ConfigError where
  /-- The chunk size is zero or off the alignment unit. -/
  | chunkSize (chunkSize : Nat)
  /-- The first chunk and the sentinels do not fit into the heap. -/
  | maxHeap (maxHeap chunkSize : Nat)
  /-- A search for a fit would look at nothing. -/
  | fitCandidates
deriving DecidableEq, Repr

def ConfigError.message : ConfigError → String
  | .chunkSize chunk => s!"chunk size {chunk} must be a non-zero multiple of 16"
  | .maxHeap heap chunk => s!"max heap {heap} cannot hold an initial chunk of {chunk} bytes"
  | .fitCandidates => "at least one fit candidate is required"

/-- Refuses a configuration that no heap can work with. The room for the first chunk and the two
sentinels is computed up to the largest word. -/
def Config.validate (config : Config) : Except ConfigError Unit :=
  if config.chunkSize = 0 ∨ config.chunkSize % alignment ≠ 0 then
    .error (.chunkSize config.chunkSize)
  else if config.maxHeap < min (config.chunkSize + 2 * wordSize) (wordLimit - 1) then
    .error (.maxHeap config.maxHeap config.chunkSize)
  else if config.fitCandidates = 0 then
    .error .fitCandidates
  else .ok ()

end BoundaryTag
