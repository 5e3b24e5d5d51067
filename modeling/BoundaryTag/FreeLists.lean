import BoundaryTag.Block
import BoundaryTag.SizeClass

/-!
# Segregated free lists

The heads of the fifteen buckets are held outside the arena, the links inside the free blocks
themselves. Bucket 0 holds blocks of 16 bytes, which have room for a forward link only, so it is
singly linked. The other buckets are doubly linked, and the backward link of a head is zero. New
blocks become the heads of their buckets.
-/
namespace BoundaryTag

/-- The heads of the free lists. -/
structure FreeLists where
  heads : Vector (Option Block) bucketCount
deriving DecidableEq, Repr

namespace FreeLists

def empty : FreeLists :=
  ⟨Vector.replicate bucketCount none⟩

def head (lists : FreeLists) (bucket : Bucket) : Option Block :=
  lists.heads[bucket]

def setHead (lists : FreeLists) (bucket : Bucket) (head : Option Block) : FreeLists :=
  ⟨lists.heads.set bucket head⟩

/-- Whether the blocks of a bucket have backward links. -/
def isTwoWay (bucket : Bucket) : Bool :=
  bucket.val != 0

/-- Sets the backward links around a new head, in a bucket that has them. -/
def linkBack (bucket : Bucket) (block : Block) (oldHead : Option Block) : ArenaM Unit := do
  if isTwoWay bucket then
    Block.setPrevFree (some block) none
    Block.setPrevFree oldHead (some block)

/-- Makes a block the head of the bucket of its size. -/
def insert (lists : FreeLists) (block : Block) : ArenaM FreeLists := do
  let bucket := Bucket.classify (← reading block.size)
  let oldHead := lists.head bucket
  -- A head that is listed again would link to itself.
  ensure (oldHead != some block) .insertedTwice
  Block.setLinkAt (← block.nextSlot) oldHead
  linkBack bucket block oldHead
  return lists.setHead bucket (some block)

/-- The member of a chain, from `current` on, whose forward link leads to `block`. -/
def predecessor (arena : Arena) (block : Block) (fuel : Nat) (current : Option Block) :
    Except Fault (Option Block) :=
  match fuel, current with
  | _, none => .ok none
  | 0, some _ => .error .endlessChain
  | fuel + 1, some node => do
    let following ← node.nextFree arena
    if following = some block then return some node
    predecessor arena block fuel following

/-- Takes a block out of a singly linked bucket. A chain without a cycle has fewer members than the
arena has bytes, which bounds the search for the predecessor. -/
def removeOneWay (lists : FreeLists) (bucket : Bucket) (block : Block) (next : Option Block) :
    ArenaM FreeLists := do
  let head := lists.head bucket
  if head = some block then return lists.setHead bucket next
  match ← reading fun arena => predecessor arena block arena.hi head with
  | some node =>
    Block.setLinkAt (← node.nextSlot) next
    return lists
  | none => throw (.missingFromBucketZero block.offset)

/-- Makes what leads to a block lead past it: the block before, or the head of the bucket when there
is no block before. -/
def bypass (lists : FreeLists) (bucket : Bucket) (block : Block) (prev next : Option Block) :
    ArenaM FreeLists := do
  match prev with
  | some prev =>
    Block.setLinkAt (← prev.nextSlot) next
    return lists
  | none =>
    ensure (lists.head bucket == some block) .notListHead
    return lists.setHead bucket next

/-- Takes a block out of a doubly linked bucket. -/
def removeTwoWay (lists : FreeLists) (bucket : Bucket) (block : Block) (next : Option Block) :
    ArenaM FreeLists := do
  let prev ← reading (Block.linkAt (← block.prevSlot))
  let lists ← lists.bypass bucket block prev next
  Block.setPrevFree next prev
  return lists

/-- Takes a block out of the bucket of its size. -/
def remove (lists : FreeLists) (block : Block) : ArenaM FreeLists := do
  let bucket := Bucket.classify (← reading block.size)
  let next ← reading block.nextFree
  if isTwoWay bucket then lists.removeTwoWay bucket block next
  else lists.removeOneWay bucket block next

/-- What a search for a fit has found. -/
structure Search where
  /-- The closest fit and its size. -/
  best : Option (Block × Nat)
  /-- How many blocks were large enough. -/
  seen : Nat

namespace Search

def start : Search := ⟨none, 0⟩

/-- Takes note of a block that is large enough; of two equal fits the earlier stays. -/
def consider (search : Search) (block : Block) (size : Nat) : Search where
  best := match search.best with
    | none => some (block, size)
    | some (best, bestSize) => if size < bestSize then some (block, size) else some (best, bestSize)
  seen := search.seen + 1

end Search

/-- Searches a chain for blocks of at least `wanted` bytes. The flag tells whether the whole search
is over, because `candidates` such blocks have been seen or one fits exactly. -/
def searchChain (arena : Arena) (wanted candidates fuel : Nat) (current : Option Block)
    (search : Search) : Except Fault (Search × Bool) :=
  match fuel, current with
  | _, none => .ok (search, false)
  | 0, some _ => .error .endlessChain
  | fuel + 1, some block => do
    let size ← block.size arena
    if wanted ≤ size then
      let search := search.consider block size
      if candidates ≤ search.seen ∨ size = wanted then return (search, true)
      searchChain arena wanted candidates fuel (← block.nextFree arena) search
    else
      searchChain arena wanted candidates fuel (← block.nextFree arena) search

/-- Searches buckets in order until the search is over. A chain with a cycle is left after
`candidates` rounds at the latest when it holds a block that is large enough, and never otherwise.
-/
def searchBuckets (lists : FreeLists) (arena : Arena) (wanted candidates : Nat)
    (buckets : List Bucket) (search : Search) : Except Fault Search :=
  match buckets with
  | [] => .ok search
  | bucket :: rest => do
    -- A round through a cycle takes at most `hi` steps and sees at least one candidate.
    let fuel := (arena.hi + 1) * (candidates + 1)
    let (search, finished) ←
      searchChain arena wanted candidates fuel (lists.head bucket) search
    if finished then return search
    lists.searchBuckets arena wanted candidates rest search

/-- The closest fit for `wanted` bytes among the first `candidates` blocks that are large enough,
taking buckets from the size class of `wanted` upward. -/
def findFit (lists : FreeLists) (arena : Arena) (wanted candidates : Nat) :
    Except Fault (Option Block) := do
  let buckets := Bucket.all.filter (Bucket.classify wanted ≤ ·)
  let search ← lists.searchBuckets arena wanted candidates buckets .start
  return search.best.map (·.1)

/-- The first blocks of a chain, at most `limit` of them. The link of each block is read before the
block is taken, also that of the last. -/
def chain (arena : Arena) (limit : Nat) (current : Option Block) : Except Fault (List Block) :=
  match limit, current with
  | 0, _ => .ok []
  | _, none => .ok []
  | limit + 1, some block => do
    let next ← block.nextFree arena
    return block :: (← chain arena limit next)

/-- The first members of a bucket, at most `limit` of them. -/
def firstMembers (lists : FreeLists) (arena : Arena) (limit : Nat) (bucket : Bucket) :
    Except Fault (List Block) :=
  chain arena limit (lists.head bucket)

/-- All members of a bucket, head first. -/
def members (lists : FreeLists) (arena : Arena) (bucket : Bucket) :
    Except Fault (List Block) := do
  let blocks ← lists.firstMembers arena (arena.hi + 1) bucket
  ensure (blocks.length ≤ arena.hi) .endlessChain
  return blocks

end FreeLists

end BoundaryTag
