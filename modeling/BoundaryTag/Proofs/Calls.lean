import BoundaryTag.Proofs.Operations

/-!
# Runs of a heap

A heap is built in an arena and then answers one call after the other. A call may name the null
address and the addresses that are live: those that the heap has handed out since the last reset and
that have not been released or moved since. The live addresses are those of the allocated blocks, in
every state that a heap can reach.
-/
namespace BoundaryTag

open Validator (Entry)

/-- What can be asked of a heap. -/
inductive Call where
  | allocate (size : Nat)
  | zeroAllocate (count size : Nat)
  | resize (address : Address) (size : Nat)
  | release (address : Address)
  | reset
  | write (address : Address) (index : Nat) (bytes : ByteArray)
  | fill (address : Address) (byte : UInt8)

namespace Call

/-- The answer of a heap: an address where one is handed out, and the null address otherwise. -/
def run : Call → HeapM (Except AllocError Address)
  | allocate size => Heap.allocate size
  | zeroAllocate count size => Heap.zeroAllocate count size
  | resize address size => Heap.resize address size
  | release address => do
    Heap.release address
    return .ok .null
  | reset => do
    match ← Heap.reset with
    | .error error => return .error error
    | .ok () => return .ok .null
  | write address index bytes => do
    let _ ← Heap.writePayload address index bytes
    return .ok .null
  | fill address byte => do
    let _ ← Heap.fillPayload address byte
    return .ok .null

/-- The address that the call names. -/
def target : Call → Address
  | resize address _ | release address | write address _ _ | fill address _ => address
  | allocate _ | zeroAllocate _ _ | reset => .null

/-- How many bytes are asked for. -/
def size : Call → Nat
  | allocate size | resize _ size => size
  | zeroAllocate count size => count * size
  | release _ | reset | write _ _ _ | fill _ _ => 0

/-- Callers name live addresses only. -/
def Permitted (live : List Address) (call : Call) : Prop :=
  call.target = .null ∨ call.target ∈ live

/-- The live addresses with one that has been handed out. -/
def handOut (live : List Address) (address : Address) : List Address :=
  if address.isNull then live else address :: live

theorem handOut_of_null (live : List Address) {address : Address} (null : address.isNull = true) :
    handOut live address = live :=
  if_pos null

theorem handOut_of_present (live : List Address) {address : Address}
    (present : address.isNull = false) : handOut live address = address :: live :=
  if_neg (ne_true_of_eq_false present)

theorem handOut_payload (live : List Address) (offset : Nat) :
    handOut live ⟨offset + 8⟩ = ⟨offset + 8⟩ :: live :=
  handOut_of_present live (Address.isNull_payload offset)

theorem sublist_handOut (live : List Address) (address : Address) :
    live.Sublist (handOut live address) := by
  unfold handOut
  split
  · exact List.Sublist.refl _
  · exact List.sublist_cons_self _ _

/-- The addresses that are live after an answer. -/
def liveAfter (live : List Address) : Call → Except AllocError Address → List Address
  | reset, _ => []
  | write _ _ _, _ | fill _ _, _ => live
  | release address, _ => live.erase address
  | resize address _, .ok moved => handOut (live.erase address) moved
  | allocate _, .ok address | zeroAllocate _ _, .ok address => handOut live address
  | _, .error _ => live

end Call

/-- A heap that has answered some calls, and the addresses that are live in it. -/
inductive Reachable : Heap → List Address → Prop
  | built {arena : Arena} {config : Config} {heap : Heap}
      (built : Heap.new arena config = .ok (.ok heap)) : Reachable heap []
  | step {heap after : Heap} {live : List Address} {call : Call}
      {answer : Except AllocError Address} (reachable : Reachable heap live)
      (permitted : call.Permitted live) (run : call.run heap = .ok answer after) :
      Reachable after (call.liveAfter live answer)

/-- An address is that of the payload of some allocated block. -/
def Owned (held : Nat → Nat → Prop) (address : Address) : Prop :=
  ∃ offset size, held offset size ∧ address = ⟨offset + 8⟩

theorem owned_iff (held : Nat → Nat → Prop) (offset : Nat) :
    Owned held ⟨offset + 8⟩ ↔ ∃ size, held offset size := by
  constructor
  · rintro ⟨place, size, holds, same⟩
    obtain rfl : offset = place := Nat.add_right_cancel (Address.mk.inj same)
    exact ⟨size, holds⟩
  · rintro ⟨size, holds⟩
    exact ⟨offset, size, holds, rfl⟩

theorem owned_or (kept : Nat → Nat → Prop) (start width : Nat) (address : Address) :
    Owned (fun place other => kept place other ∨ (place = start ∧ other = width)) address ↔
      address = ⟨start + 8⟩ ∨ Owned kept address := by
  constructor
  · rintro ⟨place, other, holds | ⟨rfl, rfl⟩, rfl⟩
    · exact .inr ⟨place, other, holds, rfl⟩
    · exact .inl rfl
  · rintro (rfl | ⟨place, other, holds, rfl⟩)
    · exact ⟨start, width, .inr ⟨rfl, rfl⟩, rfl⟩
    · exact ⟨place, other, .inl holds, rfl⟩

theorem owned_and_ne (kept : Nat → Nat → Prop) (offset : Nat) (address : Address) :
    Owned (fun place width => kept place width ∧ place ≠ offset) address ↔
      address ≠ ⟨offset + 8⟩ ∧ Owned kept address := by
  constructor
  · rintro ⟨place, width, ⟨holds, different⟩, rfl⟩
    exact ⟨fun same => different (Nat.add_right_cancel (Address.mk.inj same)),
      place, width, holds, rfl⟩
  · rintro ⟨different, place, width, holds, rfl⟩
    exact ⟨place, width, ⟨holds, fun same => different (by rw [same])⟩, rfl⟩

/-- The invariant of a run: the heap is described by a layout whose allocated blocks are those of
the live addresses. -/
structure Sound (heap : Heap) (live : List Address) : Prop where
  roomy : heap.Roomy
  nodup : live.Nodup
  layout : ∃ layout : Layout, layout.Describes heap.arena heap.lists
    ∧ ∀ address, address ∈ live ↔ Owned (Held layout.blocks) address

theorem Sound.wellFormed {heap : Heap} {live : List Address} (sound : Sound heap live) :
    WellFormed heap.arena heap.lists := by
  obtain ⟨layout, describes, -⟩ := sound.layout
  exact ⟨layout, describes⟩

theorem Sound.not_null {heap : Heap} {live : List Address} (sound : Sound heap live) :
    Address.null ∉ live := by
  obtain ⟨layout, -, members⟩ := sound.layout
  intro member
  obtain ⟨offset, size, -, same⟩ := (members _).mp member
  exact absurd (Address.mk.inj same) (Nat.succ_ne_zero _).symm

/-- What every call does: it keeps the invariant, it spares the payloads that it is not about, an
address that it hands out is new and has a block of the size that was asked for, and when it refuses
it leaves the heap as it was. -/
structure Effect (call : Call) (live : List Address) (before after : Heap)
    (answer : Except AllocError Address) : Prop where
  sound : Sound after (call.liveAfter live answer)
  spared : call ≠ .reset → ∀ address ∈ live, address ≠ call.target →
    address ∈ call.liveAfter live answer ∧ after.payload address = before.payload address
  granted : ∀ address, answer = .ok address → address.isNull = false →
    address ∉ live ∧ address ∈ call.liveAfter live answer
      ∧ after.usableSize address = .ok (blockSize call.size - 8)
  refused : ∀ error, answer = .error error → error.IsRefusal ∧ Heap.Unchanged before after
  config : after.config = before.config
  capacity : after.arena.capacity = before.arena.capacity
  backing : after.arena.backing = before.arena.backing
  higher : call ≠ .reset → before.arena.hi ≤ after.arena.hi

section Effects

variable {heap after : Heap} {layout : Layout} {live : List Address} {call : Call}
  {answer : Except AllocError Address}

theorem Heap.Becomes.payload_eq {held : Nat → Nat → Prop} {spared : Nat → Prop} {offset size : Nat}
    (becomes : Heap.Becomes layout.blocks held spared heap after)
    (describes : layout.Describes heap.arena heap.lists) (before : Held layout.blocks offset size)
    (later : held offset size) (apart : spared offset) :
    after.payload ⟨offset + 8⟩ = heap.payload ⟨offset + 8⟩ := by
  obtain ⟨others, described, holds⟩ := becomes.layout
  rw [Heap.payload_of_held describes before,
    Heap.payload_of_held described ((holds offset size).mpr later),
    becomes.payload offset size before later apart]

theorem null_of_answer (address : Address)
    (answered : (.ok .null : Except AllocError Address) = .ok address) :
    address.isNull = true := by
  cases answered
  rfl

theorem absent_of_empty (empty : ∀ address, answer = .ok address → address.isNull = true)
    {address : Address} (answered : answer = .ok address) (present : address.isNull = false) :
    False :=
  absurd ((empty address answered).symm.trans present) (by decide)

variable (sound : Sound heap live) (describes : layout.Describes heap.arena heap.lists)
  (members : ∀ address, address ∈ live ↔ Owned (Held layout.blocks) address)

include sound describes members

/-- The effect of a call, from the blocks that are held after it. -/
theorem effect_of_becomes {held : Nat → Nat → Prop} {spared : Nat → Prop}
    (becomes : Heap.Becomes layout.blocks held spared heap after)
    (nodup : (call.liveAfter live answer).Nodup)
    (later : ∀ address, address ∈ call.liveAfter live answer ↔ Owned held address)
    (stays : ∀ offset size, Held layout.blocks offset size → ⟨offset + 8⟩ ≠ call.target →
      held offset size ∧ spared offset)
    (granted : ∀ address, answer = .ok address → address.isNull = false → ∃ start,
      address = ⟨start + 8⟩ ∧ (∀ width, ¬Held layout.blocks start width)
        ∧ held start (blockSize call.size))
    (refused : ∀ error, answer = .error error → error.IsRefusal ∧ Heap.Unchanged heap after) :
    Effect call live heap after answer := by
  obtain ⟨others, described, holds⟩ := becomes.layout
  have same : Held others.blocks = held :=
    funext fun place => funext fun width => propext (holds place width)
  refine ⟨?_, ?_, ?_, refused, becomes.config, becomes.capacity, becomes.backing,
    fun _ => becomes.higher⟩
  · refine ⟨becomes.roomy sound.roomy, nodup, others, described, fun address => ?_⟩
    rw [later, same]
  · intro _ address member different
    obtain ⟨offset, size, before, rfl⟩ := (members address).mp member
    obtain ⟨kept, apart⟩ := stays offset size before different
    exact ⟨(later _).mpr ⟨offset, size, kept, rfl⟩,
      becomes.payload_eq describes before kept apart⟩
  · intro address answered present
    obtain ⟨start, rfl, fresh, new⟩ := granted address answered present
    refine ⟨fun member => ?_, (later _).mpr ⟨start, _, new, rfl⟩, ?_⟩
    · obtain ⟨width, old⟩ := (owned_iff _ start).mp ((members _).mp member)
      exact fresh width old
    · exact Heap.usableSize_of_held described ((holds _ _).mpr new)

/-- A call that leaves all blocks and all payloads as they are. -/
theorem effect_of_same
    (same : Heap.Becomes layout.blocks (Held layout.blocks) (fun _ => True) heap after)
    (stays : call.liveAfter live answer = live)
    (empty : ∀ address, answer = .ok address → address.isNull = true)
    (refused : ∀ error, answer = .error error → error.IsRefusal ∧ Heap.Unchanged heap after) :
    Effect call live heap after answer := by
  refine effect_of_becomes sound describes members same ?_ ?_ ?_ ?_ refused
  · rw [stays]
    exact sound.nodup
  · rw [stays]
    exact members
  · exact fun offset size before _ => ⟨before, trivial⟩
  · exact fun address answered present => (absent_of_empty empty answered present).elim

/-- The effect of a call that hands out memory. -/
theorem effect_of_hands {kept : Nat → Nat → Prop} {detail : Nat → Prop} {left : List Address}
    (hands : Heap.Hands layout.blocks kept call.size detail heap after answer)
    (accepted : ∀ address, call.liveAfter live (.ok address) = Call.handOut left address)
    (rejected : ∀ error, call.liveAfter live (.error error) = live)
    (empty : call.size = 0 → left = live) (nodup : left.Nodup)
    (later : ∀ address, address ∈ left ↔ Owned kept address)
    (fewer : ∀ place width, kept place width → Held layout.blocks place width)
    (stays : ∀ offset size, Held layout.blocks offset size → ⟨offset + 8⟩ ≠ call.target →
      kept offset size) :
    Effect call live heap after answer := by
  cases hands with
  | nothing none same =>
    refine effect_of_same sound describes members (same.becomes describes) ?_ null_of_answer nofun
    rw [accepted, empty none]
    rfl
  | refused error reason same =>
    refine effect_of_same sound describes members (same.becomes describes) (rejected error) nofun ?_
    rintro _ ⟨⟩
    exact ⟨reason, same⟩
  | block start positive fresh becomes holds =>
    have list : call.liveAfter live (.ok ⟨start + 8⟩) = ⟨start + 8⟩ :: left := by
      rw [accepted, Call.handOut_payload]
    -- The new address is not live already, because no block was held where it is.
    refine effect_of_becomes sound describes members becomes ?_ ?_ ?_ ?_ nofun
    · rw [list]
      refine List.nodup_cons.mpr ⟨fun member => ?_, nodup⟩
      obtain ⟨width, old⟩ := (owned_iff kept start).mp ((later _).mp member)
      exact fresh width (fewer start width old)
    · intro address
      rw [list, List.mem_cons, owned_or, later]
    · intro offset size before different
      exact ⟨.inl (stays offset size before different), trivial⟩
    · rintro address ⟨⟩ -
      exact ⟨start, rfl, fresh, .inr ⟨rfl, rfl⟩⟩

/-- The effect of a call that gives a block up. -/
theorem effect_of_released {offset : Nat}
    (becomes : Heap.Becomes layout.blocks
      (fun place width => Held layout.blocks place width ∧ place ≠ offset) (fun _ => True) heap
        after)
    (about : call.target = ⟨offset + 8⟩)
    (list : call.liveAfter live (.ok .null) = live.erase ⟨offset + 8⟩) :
    Effect call live heap after (.ok .null) := by
  refine effect_of_becomes sound describes members becomes ?_ ?_ ?_ ?_ nofun
  · rw [list]
    exact sound.nodup.erase _
  · intro address
    rw [list, sound.nodup.mem_erase_iff, owned_and_ne, members]
  · intro place width before different
    rw [about] at different
    exact ⟨⟨before, fun same => different (by rw [same])⟩, trivial⟩
  · exact fun address answered present => (absent_of_empty null_of_answer answered present).elim

/-- The effect of a call that writes into a payload. -/
theorem effect_of_writes {offset size : Nat} (held : Held layout.blocks offset size)
    (writes : Heap.Writes offset size heap after) (about : call.target = ⟨offset + 8⟩)
    (list : call.liveAfter live (.ok .null) = live) :
    Effect call live heap after (.ok .null) := by
  refine effect_of_becomes sound describes members (writes.becomes describes held) ?_ ?_ ?_ ?_ nofun
  · rw [list]
    exact sound.nodup
  · rw [list]
    exact members
  · intro place width before different
    rw [about] at different
    exact ⟨before, fun same => different (by rw [same])⟩
  · exact fun address answered present => (absent_of_empty null_of_answer answered present).elim

end Effects

end BoundaryTag
