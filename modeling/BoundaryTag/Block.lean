import BoundaryTag.Arena
import BoundaryTag.Header

/-!
# Blocks

A block is named by the offset of its header:

```text
  allocated block            free block (>= 32 bytes)      free block (16 bytes)
  ┌──────────────┐           ┌──────────────┐              ┌──────────────┐
  │ header       │           │ header       │              │ header       │
  ├──────────────┤ ◄─ payload├──────────────┤              ├──────────────┤
  │              │           │ next link    │              │ next link    │
  │ caller bytes │           ├──────────────┤              └──────────────┘
  │              │           │ prev link    │
  │              │           ├──────────────┤
  │              │           │ ...          │
  │              │           ├──────────────┤
  │              │           │ footer       │
  └──────────────┘           └──────────────┘
```

Only a free block has a footer, because only over a free block does its right neighbour ever step
back: the neighbour's flag `prevAllocated` forbids it otherwise. A free block of 16 bytes has no
room for a footer; the neighbour's flag `prevMinimal` stands in for it.
-/
namespace BoundaryTag

/-- A block, named by the offset of its header. -/
structure Block where
  offset : Nat
deriving DecidableEq, Repr

namespace Block

def payload (block : Block) : Except Fault Nat :=
  addWord block.offset wordSize

/-- The block whose payload starts at an offset. -/
def ofPayload (payload : Nat) : Except Fault Block :=
  Block.mk <$> subWord payload wordSize

/-- The block that starts `size` bytes after this one. -/
def after (block : Block) (size : Nat) : Except Fault Block :=
  Block.mk <$> addWord block.offset size

def header (block : Block) (arena : Arena) : Except Fault Header :=
  Header.ofWord <$> arena.readWord block.offset

def size (block : Block) (arena : Arena) : Except Fault Nat :=
  Header.size <$> block.header arena

def setHeader (block : Block) (header : Header) : ArenaM Unit :=
  Arena.writeWord block.offset header.toWord

/-- Where the footer of a block of `size` bytes stands. -/
def footer (block : Block) (size : Nat) : Except Fault Nat := do
  subWord (← addWord block.offset size) wordSize

/-- Replaces the header, and the footer of a free block large enough to have one. -/
def setTags (block : Block) (header : Header) : ArenaM Unit := do
  block.setHeader header
  if !header.allocated ∧ linkedBlockSize ≤ header.size then
    Arena.writeWord (← block.footer header.size) header.toWord

def writeFree (block : Block) (size : Nat) (prevAllocated prevMinimal : Bool) :
    ArenaM Unit := do
  block.setTags (← Header.pack size false prevAllocated prevMinimal)

def writeAllocated (block : Block) (size : Nat) (prevAllocated prevMinimal : Bool) :
    ArenaM Unit := do
  block.setTags (← Header.pack size true prevAllocated prevMinimal)

/-- Records the state of the block before this one, in the footer too when there is one. -/
def setPrevStatus (block : Block) (prevAllocated prevMinimal : Bool) : ArenaM Unit := do
  let header ← reading block.header
  block.setTags ((header.withPrevAllocated prevAllocated).withPrevMinimal prevMinimal)

/-- The next block in address order. The epilogue has none. -/
def next (block : Block) (arena : Arena) : Except Fault Block := do
  let size ← block.size arena
  ensure (size != 0) .stepOverEpilogue
  block.after size

/-- The block before this one, or nothing when that is the prologue. The answer has a meaning only
while the block before is free. -/
def prev (block : Block) (arena : Arena) : Except Fault (Option Block) := do
  -- A minimal block has no footer to read its size from.
  if (← block.header arena).prevMinimal then
    return some ⟨← subWord block.offset minBlockSize⟩
  let footer := Header.ofWord (← arena.readWord (← subWord block.offset wordSize))
  -- Only the prologue has size zero.
  if footer.size = 0 then return none
  return some ⟨← subWord block.offset footer.size⟩

/-- The block that the word at an offset links to; zero links to none. -/
def linkAt (offset : Nat) (arena : Arena) : Except Fault (Option Block) := do
  let word ← arena.readWord offset
  return if word = 0 then none else some ⟨word⟩

def setLinkAt (offset : Nat) (link : Option Block) : ArenaM Unit :=
  Arena.writeWord offset (match link with
    | none => 0
    | some block => block.offset)

/-- Where the forward link of a free block stands. -/
def nextSlot (block : Block) : Except Fault Nat :=
  block.payload

/-- Where the backward link of a free block stands. -/
def prevSlot (block : Block) : Except Fault Nat := do
  addWord (← block.payload) wordSize

/-- Replaces the backward link of a block, if there is a block. -/
def setPrevFree (block link : Option Block) : ArenaM Unit :=
  match block with
  | none => pure ()
  | some block => do setLinkAt (← block.prevSlot) link

def nextFree (block : Block) (arena : Arena) : Except Fault (Option Block) := do
  linkAt (← block.nextSlot) arena

/-- The block before on the same free list. A minimal block does not know it. -/
def prevFree (block : Block) (arena : Arena) : Except Fault (Option Block) := do
  if minBlockSize < (← block.size arena) then linkAt (← block.prevSlot) arena
  else return none

end Block

/-- What the bytes behind a header hold. -/
inductive BlockKind where
  | allocated (payloadSize : Nat)
  /-- Links and, in a block of 32 bytes or more, a footer. -/
  | free (next prev : Option Block) (footer : Option Header)
deriving DecidableEq, Repr

/-- A block with its header and what is behind it. -/
structure BlockView where
  block : Block
  size : Nat
  prevAllocated : Bool
  prevMinimal : Bool
  kind : BlockKind
deriving DecidableEq, Repr

namespace BlockView

/-- Reads a block as its header says. -/
def read (arena : Arena) (block : Block) : Except Fault BlockView := do
  let header ← block.header arena
  let kind ←
    if header.allocated then pure (BlockKind.allocated (header.size - wordSize))
    else if linkedBlockSize ≤ header.size then
      let next ← block.nextFree arena
      let prev ← Block.linkAt (← block.prevSlot) arena
      let footer ← arena.readWord (← block.footer header.size)
      pure (BlockKind.free next prev (some (Header.ofWord footer)))
    else
      -- There is room for the forward link only.
      pure (BlockKind.free (← block.nextFree arena) none none)
  return {
    block
    size := header.size
    prevAllocated := header.prevAllocated
    prevMinimal := header.prevMinimal
    kind }

def isFree (view : BlockView) : Bool :=
  match view.kind with
  | .allocated _ => false
  | .free .. => true

end BlockView

end BoundaryTag
