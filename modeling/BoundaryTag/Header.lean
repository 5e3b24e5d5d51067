import BoundaryTag.Word

/-!
# Block headers

A header word holds the size of a block, which is a multiple of 16, and flags in the four bits that
the size leaves free:

```text
  63                                      4   3   2   1   0
  ┌───────────────────────────────────────┬───┬───┬───┬───┐
  │                 size                  │ 0 │ m │ p │ a │
  └───────────────────────────────────────┴───┴───┴───┴───┘
    a = allocated, p = previous block allocated,
    m = previous block is a minimal (16 byte) block
```
-/
namespace BoundaryTag

/-- The smallest block: a header and one link. -/
def minBlockSize : Nat := alignment

/-- The smallest block with room for a backward link and a footer. -/
def linkedBlockSize : Nat := 2 * alignment

/-- The contents of a header word. -/
structure Header where
  /-- The block size in multiples of the alignment unit. -/
  units : Nat
  allocated : Bool
  prevAllocated : Bool
  prevMinimal : Bool
  /-- The bit that no field owns; clear in a well-formed header. -/
  reserved : Bool := false
deriving DecidableEq, Repr

namespace Header

def size (header : Header) : Nat :=
  header.units * alignment

def ofWord (word : Nat) : Header where
  units := word / alignment
  allocated := word.testBit 0
  prevAllocated := word.testBit 1
  prevMinimal := word.testBit 2
  reserved := word.testBit 3

def toWord (header : Header) : Nat :=
  header.size + header.allocated.toNat + 2 * header.prevAllocated.toNat
    + 4 * header.prevMinimal.toNat + 8 * header.reserved.toNat

/-- The header of a block of `size` bytes, a multiple of the alignment unit. -/
def pack (size : Nat) (allocated prevAllocated prevMinimal : Bool) : Except Fault Header :=
  if size % alignment = 0 then
    .ok { units := size / alignment, allocated, prevAllocated, prevMinimal }
  else .error .unalignedSize

/-- The header with another flag for the block before being allocated. -/
def withPrevAllocated (header : Header) (prevAllocated : Bool) : Header :=
  { header with prevAllocated }

/-- The header with another flag for the block before being minimal. -/
def withPrevMinimal (header : Header) (prevMinimal : Bool) : Header :=
  { header with prevMinimal }

/-- A sentinel is an allocated block of size zero. -/
def isSentinel (header : Header) : Bool :=
  header.size == 0 && header.allocated

/-- The fields that a header shows. -/
def render (header : Header) : String :=
  s!"Header \x7b size: {header.size}, allocated: {header.allocated}, "
    ++ s!"prev_allocated: {header.prevAllocated}, prev_minimal: {header.prevMinimal} \x7d"

end Header

end BoundaryTag
