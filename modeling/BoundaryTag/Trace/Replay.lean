import BoundaryTag.Heap.Allocation
import BoundaryTag.Trace.Basic
import BoundaryTag.Utilization

/-!
# Replaying a trace

The requests of a trace are put to a heap one after the other. Each payload is filled with a pattern
of its own, which is looked at again before the payload is released or moved and after it was moved,
so that blocks that overlap and bytes that get lost are noticed.
-/
namespace BoundaryTag

/-- Why a replay stops. Operations are counted from zero. -/
inductive ReplayError where
  | unknownId (operation id : Nat)
  | liveId (operation id : Nat)
  /-- The payload does not hold its pattern. -/
  | corrupted (operation id : Nat)
  /-- The payload is off the alignment unit. -/
  | misaligned (operation id : Nat)
  | alloc (operation : Nat) (source : AllocError)
deriving DecidableEq, Repr

def ReplayError.message : ReplayError → String
  | .unknownId operation id => s!"operation {operation}: id {id} is not live"
  | .liveId operation id => s!"operation {operation}: id {id} is already live"
  | .corrupted operation id => s!"operation {operation}: payload of id {id} was overwritten"
  | .misaligned operation id => s!"operation {operation}: payload of id {id} is misaligned"
  | .alloc operation source => s!"operation {operation}: {source.message}"

/-- What a replay that came to its end has found. -/
structure Report where
  operations : Nat
  /-- The most bytes that were live at once, as requested. -/
  peakPayload : Nat
  arenaBytes : Nat
deriving DecidableEq, Repr

/-- The share of the arena at the end that was live at the peak. -/
def Report.utilization (report : Report) : Float :=
  BoundaryTag.utilization report.peakPayload report.arenaBytes

/-- A live payload of a replay. -/
structure LivePayload where
  id : Nat
  address : Address
  size : Nat
deriving DecidableEq, Repr

/-- What a replay keeps track of. -/
structure Progress where
  /-- The live payloads, each number once. -/
  live : List LivePayload
  /-- The bytes live now, as requested. -/
  current : Nat
  /-- The most bytes that were live at once so far. -/
  peak : Nat
deriving DecidableEq, Repr

namespace Progress

def start : Progress := ⟨[], 0, 0⟩

def find? (progress : Progress) (id : Nat) : Option LivePayload :=
  progress.live.find? (·.id == id)

def forget (progress : Progress) (id : Nat) : Progress :=
  { progress with live := progress.live.filter (·.id != id) }

/-- Counts bytes that are no longer live. -/
def discount (progress : Progress) (size : Nat) : Except Fault Progress := do
  return { progress with current := ← subWord progress.current size }

/-- Adds a payload whose number is not in use and counts its bytes. -/
def add (progress : Progress) (payload : LivePayload) : Except Fault Progress := do
  return { progress with
    live := payload :: progress.live
    current := ← addWord progress.current payload.size }

/-- Takes note of the bytes live now. -/
def mark (progress : Progress) : Progress :=
  { progress with peak := max progress.peak progress.current }

end Progress

namespace Replay

/-- The byte at an index of the pattern of a payload. -/
def pattern (id index : Nat) : UInt8 :=
  (UInt64.ofNat id * 0x9E3779B9 ^^^ UInt64.ofNat index * 31).toUInt8

/-- Writes the pattern into a payload. -/
def fill (payload : LivePayload) : HeapM Unit := do
  let size ← reading fun heap => heap.payloadSize payload.address
  ensure (payload.size ≤ size) .outOfBounds
  Heap.onArena
    (Arena.writeBytes payload.address.offset payload.size (pattern payload.id))

/-- Whether the first bytes of a payload hold the pattern. -/
def intact (id : Nat) (address : Address) (length : Nat) (heap : Heap) : Except Fault Bool := do
  let size ← heap.payloadSize address
  ensure (length ≤ size) .outOfBounds
  return length.all fun index _ =>
    heap.arena.byte (address.offset + index) == pattern id index

/-- Whether a payload, if it has an address, holds its pattern. -/
def isIntact (payload : LivePayload) (heap : Heap) : Except Fault Bool :=
  if payload.address.isNull then .ok true
  else intact payload.id payload.address payload.size heap

/-- Whether an address is on the alignment unit. -/
def isAligned (address : Address) : Bool :=
  address.offset % alignment == 0

def allocate (operation id size : Nat) (progress : Progress) :
    HeapM (Except ReplayError Progress) := do
  if (progress.find? id).isSome then return .error (.liveId operation id)
  match ← Heap.allocate size with
  | .error source => return .error (.alloc operation source)
  | .ok address =>
    if !isAligned address then return .error (.misaligned operation id)
    fill ⟨id, address, size⟩
    return .ok (← progress.add ⟨id, address, size⟩)

/-- Gives a payload another size. One that does not exist counts as an empty one at the null
address. -/
def resize (operation id size : Nat) (progress : Progress) :
    HeapM (Except ReplayError Progress) := do
  let old := (progress.find? id).getD ⟨id, .null, 0⟩
  if !(← reading (isIntact old)) then return .error (.corrupted operation id)
  match ← Heap.resize old.address size with
  | .error source => return .error (.alloc operation source)
  | .ok address =>
    -- The old payload is gone from here on, also when the new one turns out to be wrong.
    let progress ← (progress.forget id).discount old.size
    if address.isNull then return .ok progress
    if !isAligned address then return .error (.misaligned operation id)
    if !(← reading (intact id address (min old.size size))) then
      return .error (.corrupted operation id)
    fill ⟨id, address, size⟩
    return .ok (← progress.add ⟨id, address, size⟩)

def release (operation id : Nat) (progress : Progress) :
    HeapM (Except ReplayError Progress) := do
  match progress.find? id with
  | none => return .error (.unknownId operation id)
  | some old =>
    if !(← reading (intact id old.address old.size)) then
      return .error (.corrupted operation id)
    Heap.release old.address
    return .ok (← (progress.forget id).discount old.size)

/-- Puts one request to the heap. -/
def step (operation : Nat) (request : Request) (progress : Progress) :
    HeapM (Except ReplayError Progress) :=
  match request with
  | .allocate id size => allocate operation id size progress
  | .resize id size => resize operation id size progress
  | .release id => release operation id progress

/-- Puts requests to the heap, the first of which has the given number. -/
def steps (operation : Nat) (requests : List Request) (progress : Progress) :
    HeapM (Except ReplayError Progress) := do
  match requests with
  | [] => return .ok progress
  | request :: rest =>
    match ← step operation request progress with
    | .error error => return .error error
    | .ok progress => steps (operation + 1) rest progress.mark

end Replay

/-- Puts all requests of a trace to the heap. -/
def Trace.replay (trace : Trace) : HeapM (Except ReplayError Report) := do
  match ← Replay.steps 0 trace .start with
  | .error error => return .error error
  | .ok progress =>
    let arenaBytes ← Heap.readArena fun arena => pure arena.hi
    let report : Report := ⟨trace.length, progress.peak, arenaBytes⟩
    Heap.record (.replayed report.operations report.peakPayload report.arenaBytes)
    return .ok report

end BoundaryTag
