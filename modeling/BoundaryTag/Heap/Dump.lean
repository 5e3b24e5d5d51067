import BoundaryTag.Heap.Blocks
import BoundaryTag.Text.Columns

/-!
# Heap dumps

A dump has a line for the heap, a line for each block in address order, and a line for each size
class that has members, with the members in list order.
-/
namespace BoundaryTag.Heap

open Text

/-- A link as a dump shows it. -/
def linkText (link : Option Block) : String :=
  match link with
  | some block => hex block.offset
  | none => "-"

/-- What a header says about the block before: `p` when it is allocated, `m` when it is minimal. -/
def flagsText (view : BlockView) : String :=
  (if view.prevAllocated then "p" else "-") ++ (if view.prevMinimal then "m" else "-")

/-- The line of a block. -/
def blockLine (view : BlockView) : String :=
  let place := s!"  {hexFilled 8 view.block.offset} {alignRight 8 (toString view.size)}"
  match view.kind with
  | .allocated payloadSize => s!"{place} alloc {flagsText view} payload {payloadSize}\n"
  | .free next prev _ =>
    s!"{place} free  {flagsText view} next {linkText next} prev {linkText prev}\n"

/-- The line of a size class; nothing when it has no members. -/
def bucketLine (bucket : Bucket) (members : List Block) : String :=
  if members.isEmpty then ""
  else
    let upper := match bucket.upper? with
      | some upper => toString upper
      | none => ".."
    let offsets := " -> ".intercalate (members.map fun block => hex block.offset)
    s!"  bucket {alignRight 2 (toString bucket.val)} [{bucket.lower}, {upper}]: {offsets}\n"

/-- The whole heap as text. -/
def dump (heap : Heap) : Except Fault String := do
  let blocks ← heap.blocks
  let buckets ← Bucket.all.mapM fun bucket => do
    return bucketLine bucket (← heap.lists.members heap.arena bucket)
  let hi := heap.arena.hi
  return s!"heap [0x0, {hex hi}) {hi} bytes\n"
    ++ String.join (blocks.map blockLine) ++ String.join buckets

end BoundaryTag.Heap
