import BoundaryTag.FreeLists
import Std.Data.HashMap
import Std.Data.HashSet

/-!
# The heap validator

The validator reads the arena in address order and then walks the free lists, and stops at the first
violation. It decodes headers itself and does not use the operations that it checks.

The first pass moves up the arena by at least one word a step. The second pass crosses each block it
meets off the set of blocks not yet met, so a chain with a cycle ends at the second meeting.
-/
namespace BoundaryTag.Validator

/-- A check either passes, or ends at a violation. -/
abbrev Check := ExceptT Violation (Except Fault)

/-- A block as the address pass records it. -/
structure Entry where
  offset : Nat
  header : Header
deriving DecidableEq, Repr

/-- The header at an offset; a word that is not all in the arena counts as zero. -/
def headerAt (arena : Arena) (offset : Nat) : Header :=
  Header.ofWord ((arena.readWord? offset).getD 0)

def require (condition : Bool) (violation : Violation) : Check Unit :=
  if condition then pure () else throw violation

/-- The flags must tell the truth about the block before; the prologue counts as an allocated block
that is not minimal. -/
def checkFlags (previous : Option Entry) (current : Entry) : Check Unit := do
  let prevAllocated := match previous with
    | none => true
    | some previous => previous.header.allocated
  let prevMinimal := match previous with
    | none => false
    | some previous => previous.header.size == minBlockSize
  require (current.header.prevAllocated == prevAllocated) (.prevAllocatedFlag current.offset)
  require (current.header.prevMinimal == prevMinimal) (.prevMinimalFlag current.offset)

/-- The block before a free block must be allocated, if there is one. -/
def checkNeighbour (previous : Option Entry) (offset : Nat) : Check Unit :=
  match previous with
  | none => pure ()
  | some previous => require previous.header.allocated (.adjacentFree previous.offset offset)

/-- A free block that is large enough must have its header again as footer. -/
def checkFooter (arena : Arena) (current : Entry) : Check Unit :=
  let footer := headerAt arena (current.offset + current.header.size - wordSize)
  require (current.header.size < linkedBlockSize || footer == current.header)
    (.footerMismatch current.offset)

/-- What else must hold of a block when it is free. -/
def checkFree (arena : Arena) (previous : Option Entry) (current : Entry) : Check Unit := do
  if !current.header.allocated then
    checkNeighbour previous current.offset
    checkFooter arena current

/-- Checks the blocks from an offset up to the epilogue and lists them. Each must have truthful
flags and a possible size and place. -/
def checkBlocksFrom (arena : Arena) (epilogue : Nat) (previous : Option Entry) (offset : Nat) :
    Check (List Entry) := do
  let header := headerAt arena offset
  -- The epilogue knows about the last block, so its flags are checked like those of a block.
  checkFlags previous ⟨offset, header⟩
  if offset = epilogue then return []
  require (!header.reserved) (.reservedBits offset)
  -- What is at least a block moves the pass on, so it comes to an end.
  if _ : header.size < minBlockSize then throw (.undersized offset header.size)
  else
    require ((offset + wordSize) % alignment == 0) (.misaligned offset)
    if _ : epilogue < offset + header.size then throw (.overrun offset header.size)
    else
      checkFree arena previous ⟨offset, header⟩
      let rest ←
        checkBlocksFrom arena epilogue (some ⟨offset, header⟩) (offset + header.size)
      return ⟨offset, header⟩ :: rest
termination_by epilogue - offset
decreasing_by
  have positive : 0 < minBlockSize := by decide
  change epilogue - (offset + header.size) < epilogue - offset
  omega

/-- The address pass: the sentinels, and every block between them. -/
def checkBlocks (arena : Arena) : Check (List Entry) := do
  require (2 * wordSize ≤ arena.hi) (.arenaTooSmall arena.hi)
  require (headerAt arena 0).isSentinel (.badPrologue 0)
  let epilogue := arena.hi - wordSize
  require (headerAt arena epilogue).isSentinel (.badEpilogue epilogue)
  checkBlocksFrom arena epilogue none wordSize

/-- What the list pass knows about the blocks of the heap. -/
structure Census where
  /-- The header of every block by offset. -/
  headers : Std.HashMap Nat Header
  /-- The free blocks that no list has led to so far. -/
  unlisted : Std.HashSet Nat

def Census.ofBlocks (blocks : List Entry) : Census where
  headers := .ofList (blocks.map fun entry => (entry.offset, entry.header))
  unlisted := .ofList ((blocks.filter fun entry => !entry.header.allocated).map (·.offset))

/-- Where a bucket has backward links, that of the head must be zero and that of any other member
must lead to the member before. -/
def checkBackLink (arena : Arena) (bucket : Bucket) (previous : Option Nat) (offset : Nat) :
    Check Unit := do
  if FreeLists.isTwoWay bucket then
    let back ← arena.readWord (offset + 2 * wordSize)
    match previous with
    | none => require (back == 0) (.headHasPrev bucket offset)
    | some previous => require (back == previous) (.brokenBackLink offset)

/-- A member of a bucket must be a free block of that size class. -/
def checkMember (census : Census) (bucket : Bucket) (offset : Nat) : Check Unit := do
  match census.headers[offset]? with
  | none => throw (.danglingLink bucket offset)
  | some header =>
    require (!header.allocated) (.allocatedInList bucket offset)
    require (Bucket.classify header.size == bucket) (.wrongBucket bucket offset header.size)

/-- Checks a chain from a block on and crosses its members off; a block already crossed off has been
met before. -/
def checkChain (arena : Arena) (bucket : Bucket) (census : Census) (previous : Option Nat)
    (current : Option Block) : Check Census := do
  match current with
  | none => return census
  | some ⟨offset⟩ =>
    checkMember census bucket offset
    -- A free block that is not left on the census has been met before.
    if _ : offset ∈ census.unlisted then
      checkBackLink arena bucket previous offset
      let next ← Block.linkAt (offset + wordSize) arena
      checkChain arena bucket { census with unlisted := census.unlisted.erase offset }
        (some offset) next
    else throw (.duplicated offset)
termination_by census.unlisted.size
decreasing_by
  have met : offset ∈ census.unlisted := by assumption
  have positive : census.unlisted.size ≠ 0 := by
    intro empty
    have := Std.HashSet.isEmpty_eq_false_iff_exists_mem.mpr ⟨offset, met⟩
    simp [Std.HashSet.isEmpty_eq_size_eq_zero, empty] at this
  simp only [Std.HashSet.size_erase, met, if_true]
  omega

def checkBuckets (arena : Arena) (lists : FreeLists) (buckets : List Bucket) (census : Census) :
    Check Census :=
  buckets.foldlM
    (fun census bucket => checkChain arena bucket census none (lists.head bucket)) census

/-- The list pass: each bucket, and then that every free block has been met. -/
def checkLists (arena : Arena) (lists : FreeLists) (blocks : List Entry) : Check Unit := do
  let census := Census.ofBlocks blocks
  let inHeap := census.unlisted.size
  let census ← checkBuckets arena lists Bucket.all census
  -- The members met and the blocks left over add up to the free blocks of the heap.
  let missing := census.unlisted.size
  require (missing == 0) (.freeCountMismatch inHeap (inHeap - missing))

def check (arena : Arena) (lists : FreeLists) : Check Unit := do
  checkLists arena lists (← checkBlocks arena)

end BoundaryTag.Validator

namespace BoundaryTag

def validate (arena : Arena) (lists : FreeLists) : Except Fault (Except Violation Unit) :=
  (Validator.check arena lists).run

end BoundaryTag
