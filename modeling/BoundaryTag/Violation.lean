import BoundaryTag.Text.Hex

/-!
# Violations of the heap invariant

What the heap validator can find wrong, with the offsets and sizes that show it.
-/
namespace BoundaryTag

/-- One broken heap invariant. Offsets are those of the offending block or word. -/
inductive Violation where
  | arenaTooSmall (size : Nat)
  /-- The first word is not a sentinel. -/
  | badPrologue (offset : Nat)
  /-- The last word is not a sentinel. -/
  | badEpilogue (offset : Nat)
  /-- A block is smaller than the smallest one possible. -/
  | undersized (offset size : Nat)
  /-- A payload does not start on the alignment unit. -/
  | misaligned (offset : Nat)
  /-- A header bit that no field owns is set. -/
  | reservedBits (offset : Nat)
  /-- A block reaches past the epilogue. -/
  | overrun (offset size : Nat)
  | adjacentFree (previous offset : Nat)
  /-- A header is wrong about its neighbour being allocated. -/
  | prevAllocatedFlag (offset : Nat)
  /-- A header is wrong about its neighbour being minimal. -/
  | prevMinimalFlag (offset : Nat)
  | footerMismatch (offset : Nat)
  /-- The first block of a bucket links backwards. -/
  | headHasPrev (bucket offset : Nat)
  /-- A bucket reaches an offset where no block starts. -/
  | danglingLink (bucket offset : Nat)
  | allocatedInList (bucket offset : Nat)
  /-- A bucket reaches a block of another size class. -/
  | wrongBucket (bucket offset size : Nat)
  /-- A backward link does not lead to the block before. -/
  | brokenBackLink (offset : Nat)
  /-- The buckets reach a block twice. -/
  | duplicated (offset : Nat)
  | freeCountMismatch (inHeap inLists : Nat)
deriving DecidableEq, Repr

open Text in
def Violation.message : Violation → String
  | .arenaTooSmall size => s!"arena of {size} bytes is too small to hold the sentinels"
  | .badPrologue offset => s!"prologue at {hex offset} is not a zero-size allocated sentinel"
  | .badEpilogue offset => s!"epilogue at {hex offset} is not a zero-size allocated sentinel"
  | .undersized offset size =>
    s!"block at {hex offset} has size {size}, below the minimal block size"
  | .misaligned offset => s!"block at {hex offset} has a payload off the alignment unit"
  | .reservedBits offset => s!"block at {hex offset} has non-zero reserved header bits"
  | .overrun offset size => s!"block at {hex offset} with size {size} runs past the epilogue"
  | .adjacentFree previous offset =>
    s!"free blocks at {hex previous} and {hex offset} are adjacent"
  | .prevAllocatedFlag offset => s!"block at {hex offset} has a stale previous-allocated flag"
  | .prevMinimalFlag offset => s!"block at {hex offset} has a stale previous-minimal flag"
  | .footerMismatch offset =>
    s!"free block at {hex offset} has a footer that does not match its header"
  | .headHasPrev bucket offset => s!"bucket {bucket} head at {hex offset} has a backward link"
  | .danglingLink bucket offset =>
    s!"bucket {bucket} links to {hex offset}, which is not a block in the heap"
  | .allocatedInList bucket offset =>
    s!"bucket {bucket} holds allocated block at {hex offset}"
  | .wrongBucket bucket offset size =>
    s!"bucket {bucket} holds block at {hex offset} of size {size}, outside its range"
  | .brokenBackLink offset =>
    s!"block at {hex offset} backward link does not point to its list predecessor"
  | .duplicated offset => s!"block at {hex offset} appears more than once in the free lists"
  | .freeCountMismatch inHeap inLists =>
    s!"{inHeap} free blocks in the heap but {inLists} in the free lists"

end BoundaryTag
