import BoundaryTag.Heap.Blocks
import BoundaryTag.Utilization

/-!
# Statistics

How the bytes of a heap are used, counted over its blocks.
-/
namespace BoundaryTag

/-- How the bytes of a heap are used. -/
structure Statistics where
  /-- All bytes of the arena, sentinels included. -/
  arenaBytes : Nat
  /-- Number of allocated blocks. -/
  allocatedBlocks : Nat
  /-- Total size of the allocated blocks. -/
  allocatedBytes : Nat
  /-- Bytes that callers can use. -/
  payloadBytes : Nat
  /-- Number of free blocks. -/
  freeBlocks : Nat
  /-- Total size of the free blocks. -/
  freeBytes : Nat
  /-- Size of the largest free block, zero when there is none. -/
  largestFree : Nat
  /-- Number of free blocks in each size class. -/
  bucketCounts : List Nat
deriving DecidableEq, Repr

namespace Statistics

/-- The total of a property of blocks. -/
def total (property : BlockView → Nat) (blocks : List BlockView) : Nat :=
  blocks.foldr (fun view rest => property view + rest) 0

/-- Counts the blocks of an arena. -/
def ofBlocks (arenaBytes : Nat) (blocks : List BlockView) : Statistics :=
  let allocated := blocks.filter (!·.isFree)
  let free := blocks.filter (·.isFree)
  { arenaBytes
    allocatedBlocks := allocated.length
    allocatedBytes := total (·.size) allocated
    payloadBytes := total (fun view => view.size - wordSize) allocated
    freeBlocks := free.length
    freeBytes := total (·.size) free
    largestFree := free.foldr (fun view rest => max view.size rest) 0
    bucketCounts :=
      Bucket.all.map fun bucket => free.countP fun view => Bucket.classify view.size == bucket }

/-- The share of the arena that callers can use. -/
def utilization (statistics : Statistics) : Float :=
  BoundaryTag.utilization statistics.payloadBytes statistics.arenaBytes

end Statistics

/-- How the bytes of the heap are used. -/
def Heap.statistics (heap : Heap) : Except Fault Statistics :=
  Statistics.ofBlocks heap.arena.hi <$> heap.blocks

end BoundaryTag
