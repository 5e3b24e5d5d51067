import BoundaryTag.Config
import BoundaryTag.Validator

/-!
# Heaps

A heap is an arena cut into blocks between two sentinels, with the free blocks on segregated lists:

```text
  offset 0    8                                              hi-8   hi
  ┌──────────┬────────────┬─────────┬──────────────┬───────┬──────────┐
  │ prologue │  block     │  block  │  free block  │  ...  │ epilogue │
  │ 0 / a    │  (header)  │         │ (hdr ... ftr)│       │  0 / a   │
  └──────────┴────────────┴─────────┴──────────────┴───────┴──────────┘
```

The prologue stands for the footer of an allocated block of size zero before the first block, and
the epilogue is the header of one after the last block.

A heap keeps a journal of what it did.
-/
namespace BoundaryTag

/-- The address of a payload: its offset in the arena. -/
structure Address where
  offset : Nat
deriving DecidableEq, Repr

namespace Address

/-- The address of no payload; the prologue is there. -/
def null : Address := ⟨0⟩

def isNull (address : Address) : Bool :=
  address.offset == 0

def render (address : Address) : String :=
  Text.hex address.offset

end Address

/-- Why a request for memory cannot be met. -/
inductive AllocError where
  | outOfMemory (requested : Nat) (source : ArenaError)
  /-- The block would be larger than the address space. -/
  | tooLarge (requested : Nat)
  /-- The size of all items together is larger than the address space. -/
  | overflow (count size : Nat)
  | config (source : ConfigError)
deriving DecidableEq, Repr

def AllocError.message : AllocError → String
  | .outOfMemory requested _ => s!"out of memory while allocating {requested} bytes"
  | .tooLarge requested => s!"request of {requested} bytes is too large"
  | .overflow count size => s!"zeroed allocation of {count} x {size} bytes overflows"
  | .config source => s!"invalid heap configuration: {source.message}"

inductive Level where
  | trace
  | debug
  | warn
  | error
deriving DecidableEq, Repr

def Level.label : Level → String
  | .trace => "trace"
  | .debug => "debug"
  | .warn => "warn"
  | .error => "error"

/-- The place of a level among all, the least severe first. -/
def Level.severity : Level → Nat
  | .trace => 0
  | .debug => 1
  | .warn => 2
  | .error => 3

/-- Something done or found that a log may tell of. -/
inductive Event where
  /-- The system has made a mapping at an address of the machine. -/
  | mapped (capacity base : Nat)
  | allocated (size : Nat) (address : Address) (blockSize : Nat)
  /-- A block was released and joined with its free neighbours. -/
  | released (address : Address) (blockSize : Nat) (merged : Block)
  | resized (address : Address) (size : Nat) (moved : Address) (copied : Nat)
  /-- The heap was emptied and got its first chunk. -/
  | initialised (chunkSize capacity : Nat)
  | extended (size hi : Nat)
  | exhausted (size : Nat) (source : ArenaError)
  | replayed (operations peakPayload arenaBytes : Nat)
  | checkFailed (violation : Violation)
deriving DecidableEq, Repr

namespace Event

def level : Event → Level
  | .mapped .. => .debug
  | .allocated .. => .trace
  | .released .. => .trace
  | .resized .. => .trace
  | .initialised .. => .debug
  | .extended .. => .debug
  | .exhausted .. => .warn
  | .replayed .. => .debug
  | .checkFailed .. => .error

def message : Event → String
  | .mapped capacity base => s!"mapped arena of {capacity} bytes at {Text.hex base}"
  | .allocated size address blockSize =>
    s!"allocate({size}) -> {address.render} [block size {blockSize}]"
  | .released address blockSize merged =>
    s!"release({address.render}) [block size {blockSize}, merged into {Text.hex merged.offset}]"
  | .resized address size moved copied =>
    s!"resize({address.render}, {size}) -> {moved.render} [{copied} bytes copied]"
  | .initialised chunkSize capacity =>
    s!"heap initialised: chunk = {chunkSize}, capacity = {capacity}"
  | .extended size hi => s!"extended heap by {size} bytes to {hi}"
  | .exhausted size source =>
    s!"arena exhausted extending by {size} bytes: {source.message}"
  | .replayed operations peakPayload arenaBytes =>
    s!"replayed {operations} ops: peak payload {peakPayload} bytes in a {arenaBytes} byte arena"
  | .checkFailed violation => s!"heap check failed: {violation.message}"

/-- The event as a line of a log. -/
def render (event : Event) : String :=
  event.level.label ++ " " ++ event.message

end Event

/-- A heap over a growable arena. -/
structure Heap where
  config : Config
  arena : Arena
  lists : FreeLists
  /-- What the heap did, earliest first. -/
  journal : Array Event

abbrev HeapM := EStateM Fault Heap

def Block.first : Block := ⟨wordSize⟩

namespace Heap

/-- An arena before a heap is built in it. -/
def unbuilt (arena : Arena) (config : Config) : Heap :=
  { config, arena, lists := .empty, journal := #[] }

def readArena {Result : Type} (read : Arena → Except Fault Result) : HeapM Result :=
  reading fun heap => read heap.arena

/-- Changes the arena only. -/
def onArena {Result : Type} (action : ArenaM Result) : HeapM Result := fun heap =>
  -- The heap is taken apart so that it does not hold on to the arena that the action changes.
  match heap with
  | ⟨config, arena, lists, journal⟩ =>
    match action arena with
    | .ok result arena => .ok result ⟨config, arena, lists, journal⟩
    | .error fault arena => .error fault ⟨config, arena, lists, journal⟩

/-- Changes the free lists, whose links are in the arena. -/
def onLists (action : FreeLists → ArenaM FreeLists) : HeapM Unit := fun heap =>
  match heap with
  | ⟨config, arena, lists, journal⟩ =>
    match action lists arena with
    | .ok lists arena => .ok () ⟨config, arena, lists, journal⟩
    | .error fault arena => .error fault ⟨config, arena, lists, journal⟩

def record (event : Event) : HeapM Unit :=
  modify fun heap => { heap with journal := heap.journal.push event }

def validate (heap : Heap) : Except Fault (Except Violation Unit) :=
  BoundaryTag.validate heap.arena heap.lists

/-- Tells whether the heap is sound, and puts a violation on record. -/
def check : HeapM Bool := do
  match ← reading validate with
  | .ok () => return true
  | .error violation =>
    record (.checkFailed violation)
    return false

/-- Faults when the configuration asks for checks and the heap is not sound. -/
def verify (checkpoint : Checkpoint) (heap : Heap) : Except Fault Unit := do
  if heap.config.checkHeap then
    match ← heap.validate with
    | .ok () => return ()
    | .error violation => throw (.invariantBroken checkpoint violation)

/-- How many bytes the payload at an address can hold; none at the null address. -/
def usableSize (heap : Heap) (address : Address) : Except Fault Nat := do
  if address.isNull then return 0
  subWord (← (← Block.ofPayload address.offset).size heap.arena) wordSize

/-- The size of the payload at an address, all of which must lie in the arena. -/
def payloadSize (heap : Heap) (address : Address) : Except Fault Nat := do
  let size ← heap.usableSize address
  if address.offset + size ≤ heap.arena.hi then return size else throw .outOfBounds

def payload (heap : Heap) (address : Address) : Except Fault (List UInt8) := do
  heap.arena.readBytes address.offset (← heap.payloadSize address)

/-- The bytes of a payload from an index on, at most `length` of them. -/
def readPayload (heap : Heap) (address : Address) (index length : Nat) :
    Except Fault (List UInt8) := do
  let size ← heap.payloadSize address
  let start := min index size
  heap.arena.readBytes (address.offset + start) (min length (size - start))

/-- Writes into a payload from an index on, as much as the payload can hold, and answers how many
bytes that was. -/
def writePayload (address : Address) (index : Nat) (bytes : ByteArray) : HeapM Nat := do
  let size ← reading fun heap => heap.payloadSize address
  let start := min index size
  let length := min bytes.size (size - start)
  onArena (Arena.writeBytes (address.offset + start) length (Bytes.get bytes))
  return length

/-- Writes one byte all over a payload and answers the payload's size. -/
def fillPayload (address : Address) (byte : UInt8) : HeapM Nat := do
  let size ← reading fun heap => heap.payloadSize address
  onArena (Arena.fillBytes address.offset size byte)
  return size

/-- The block of the payload at an address; there is none at the null address. -/
def blockAt (heap : Heap) (address : Address) : Except Fault (Option BlockView) := do
  if address.isNull then return none
  return some (← BlockView.read heap.arena (← Block.ofPayload address.offset))

end Heap

end BoundaryTag
