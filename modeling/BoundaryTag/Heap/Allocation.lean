import BoundaryTag.Heap.Basic

/-!
# Allocation

Requests are met from the free lists: a search for a close fit, then a cut. When nothing fits, the
arena grows, and its old epilogue becomes the header of the new free block. Released blocks are
joined with their free neighbours at once, so no two free blocks are ever neighbours.
-/
namespace BoundaryTag.Heap

/-- The free block right before a block whose flag says that there is one. -/
def freePredecessor (block : Block) (arena : Arena) : Except Fault Block := do
  match ← block.prev arena with
  | some prev => return prev
  | none => throw (.missingBoundaryTag block.offset)

/-- Takes the free neighbours of a free block off their lists. The answer is the block that starts
where the leftmost of them does, and the size of all of them together. -/
def absorbNeighbours (block : Block) : HeapM (Block × Nat) := do
  let header ← readArena block.header
  ensure (!header.allocated) .notFree
  let next ← readArena block.next
  let nextHeader ← readArena next.header
  match header.prevAllocated, nextHeader.allocated with
  | true, true => return (block, header.size)
  | true, false =>
    onLists (·.remove next)
    return (block, ← addWord header.size nextHeader.size)
  | false, true =>
    let prev ← readArena (freePredecessor block)
    onLists (·.remove prev)
    return (prev, ← addWord (← readArena prev.size) header.size)
  | false, false =>
    let prev ← readArena (freePredecessor block)
    onLists (·.remove prev)
    onLists (·.remove next)
    -- Taking blocks off their lists changes links only, so the sizes still stand.
    let joined ← addWord (← readArena prev.size) header.size
    return (prev, ← addWord joined nextHeader.size)

/-- Joins a free block that is on no list with its free neighbours and lists the result. -/
def coalesce (block : Block) : HeapM Block := do
  let (start, size) ← absorbNeighbours block
  -- What lies before the first of the joined blocks has not changed.
  let header ← readArena start.header
  onArena (start.writeFree size header.prevAllocated header.prevMinimal)
  onArena ((← start.after size).setPrevStatus false (size == minBlockSize))
  onLists (·.insert start)
  return start

/-- Makes a listed free block an allocated block of `wanted` bytes. A rest that can be a block is
listed; a smaller one stays with the allocated block. -/
def place (block : Block) (wanted : Nat) : HeapM Unit := do
  let header ← readArena block.header
  ensure (!header.allocated && wanted ≤ header.size) .notFree
  -- The links lie in what is about to become a payload.
  onLists (·.remove block)
  let remainder := header.size - wanted
  if minBlockSize ≤ remainder then
    onArena (block.writeAllocated wanted header.prevAllocated header.prevMinimal)
    let rest ← block.after wanted
    onArena (rest.writeFree remainder true (wanted == minBlockSize))
    onArena ((← readArena rest.next).setPrevStatus false (remainder == minBlockSize))
    onLists (·.insert rest)
  else
    onArena (block.writeAllocated header.size header.prevAllocated header.prevMinimal)
    onArena ((← readArena block.next).setPrevStatus true (header.size == minBlockSize))

/-- Grows the arena by `size` bytes, rounded up, and makes them a free block, joined with a free
block that was last before. -/
def extend (size : Nat) : HeapM (Except AllocError Block) := do
  let size ← align size
  match ← onArena (Arena.grow size) with
  | .error source =>
    record (.exhausted size source)
    return .error (.outOfMemory size source)
  | .ok start =>
    -- The word before the new bytes is the old epilogue; it knows about the last block.
    let block : Block := ⟨← subWord start wordSize⟩
    let epilogue ← readArena block.header
    onArena (block.writeFree size epilogue.prevAllocated epilogue.prevMinimal)
    onArena ((← block.after size).writeAllocated 0 false (size == minBlockSize))
    record (.extended size (← readArena fun arena => pure arena.hi))
    return .ok (← coalesce block)

/-- Empties the heap: two sentinels and one chunk of free space. -/
def reset : HeapM (Except AllocError Unit) := do
  onArena Arena.reset
  modify fun heap => { heap with lists := .empty }
  match ← onArena (Arena.grow (2 * wordSize)) with
  | .error source => return .error (.outOfMemory (2 * wordSize) source)
  | .ok start =>
    ensure ((← addWord start wordSize) == Block.first.offset) .misplacedStart
    -- Prologue and epilogue; the epilogue moves up when the first chunk is added.
    onArena (Block.writeAllocated ⟨start⟩ 0 true false)
    onArena (Block.first.writeAllocated 0 true false)
    let chunkSize ← reading fun heap => pure heap.config.chunkSize
    match ← extend chunkSize with
    | .error error => return .error error
    | .ok _ =>
      record (.initialised chunkSize (← readArena fun arena => pure arena.capacity))
      return .ok ()

/-- Builds a heap where there was only an arena, unless the configuration forbids it. Whatever the
arena held is discarded. -/
def build : HeapM (Except AllocError Unit) := do
  match ← reading fun heap => pure heap.config.validate with
  | .error error => return .error (.config error)
  | .ok () => reset

def new (arena : Arena) (config : Config) : Except Fault (Except AllocError Heap) :=
  match build.run (Heap.unbuilt arena config) with
  | .ok (.ok ()) heap => .ok (.ok heap)
  | .ok (.error error) _ => .ok (.error error)
  | .error fault _ => .error fault

/-- The block size for a payload of `size` bytes: a header more, rounded up to the alignment unit.
-/
def adjustedSize (size : Nat) : Except Fault (Except AllocError Nat) := do
  if wordLimit - 1 - (wordSize + alignment) < size then return .error (.tooLarge size)
  return .ok (max (← align (← addWord size wordSize)) minBlockSize)

def findFit (wanted : Nat) (heap : Heap) : Except Fault (Option Block) :=
  heap.lists.findFit heap.arena wanted heap.config.fitCandidates

/-- A free block of at least `wanted` bytes, from an arena that grows if it has to. -/
def findBlock (wanted : Nat) : HeapM (Except AllocError Block) := do
  match ← reading (findFit wanted) with
  | some block => return .ok block
  | none =>
    let chunkSize ← reading fun heap => pure heap.config.chunkSize
    match ← extend (max wanted chunkSize) with
    | .error error => return .error error
    -- The new block may have joined the last one and is listed, so the search is made again.
    | .ok extended => return .ok ((← reading (findFit wanted)).getD extended)

/-- Allocates a payload of at least `size` bytes. No bytes have the null address. -/
def allocate (size : Nat) : HeapM (Except AllocError Address) := do
  reading (verify .beforeAllocate)
  if size = 0 then return .ok .null
  match ← adjustedSize size with
  | .error error => return .error error
  | .ok wanted =>
    match ← findBlock wanted with
    | .error error => return .error error
    | .ok block =>
      place block wanted
      let address : Address := ⟨← block.payload⟩
      record (.allocated size address (← readArena block.size))
      reading (verify .afterAllocate)
      return .ok address

/-- Gives the payload at an address back. The null address has none to give. -/
def release (address : Address) : HeapM Unit := do
  if address.isNull then return ()
  reading (verify .beforeRelease)
  let block ← Block.ofPayload address.offset
  let header ← readArena block.header
  ensure header.allocated (.releaseOfFree address.offset)
  onArena (block.writeFree header.size header.prevAllocated header.prevMinimal)
  let merged ← coalesce block
  record (.released address header.size merged)
  reading (verify .afterRelease)

/-- Moves a payload to a fresh block of `size` bytes, with as many of its bytes as the new size and
the old block both hold. Size zero releases, and the null address allocates. -/
def resize (address : Address) (size : Nat) : HeapM (Except AllocError Address) := do
  if size = 0 then
    release address
    return .ok .null
  if address.isNull then allocate size
  else
    let oldSize ← reading fun heap => heap.usableSize address
    match ← allocate size with
    | .error error => return .error error
    | .ok moved =>
      let length := min oldSize size
      -- The old payload is released last: until then its bytes are safe.
      onArena (Arena.copyBytes address.offset moved.offset length)
      release address
      record (.resized address size moved length)
      return .ok moved

/-- Clears the first bytes of a payload. The null address has none to clear. -/
def clear (address : Address) (length : Nat) : HeapM Unit := do
  if !address.isNull then
    onArena (Arena.fillBytes address.offset length 0)

/-- Allocates `count` items of `size` bytes each and clears them. -/
def zeroAllocate (count size : Nat) : HeapM (Except AllocError Address) := do
  let total := count * size
  if wordLimit ≤ total then return .error (.overflow count size)
  match ← allocate total with
  | .error error => return .error error
  | .ok address =>
    clear address total
    return .ok address

end BoundaryTag.Heap
