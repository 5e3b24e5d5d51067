import BoundaryTag.Proofs.Canonical
import BoundaryTag.Proofs.Isolation
import BoundaryTag.Trace.Replay
import Mathlib.Algebra.BigOperators.Group.List.Basic
import Mathlib.Algebra.GroupWithZero.Nat

/-!
# The payloads of a replay in a heap

A replay knows its payloads by number, the heap knows them by address. The two accounts agree as
long as each payload that has bytes is in a block of its own, of the right size, and holds its
pattern. Next to these blocks are those of the addresses that were live before. A call is about one
of the payloads, possibly an empty one, and leaves the agreement intact for all others.
-/
namespace BoundaryTag

open Validator (Entry)

variable {heap after : Heap} {live : List Address} {address : Address} {bytes : List UInt8}

namespace Heap

/-- What can be read of a payload is all of it. -/
theorem payloadSize_of_payload (read : heap.payload address = .ok bytes) :
    heap.payloadSize address = .ok bytes.length
      ∧ bytes = contents heap.arena address.offset bytes.length := by
  obtain ⟨size, room, read⟩ := exists_of_except_bind read
  unfold Arena.readBytes at read
  split at read
  · obtain rfl : contents heap.arena address.offset size = bytes := Except.ok.inj read
    rw [length_contents]
    exact ⟨room, rfl⟩
  · cases read

theorem payload_null (heap : Heap) : heap.payload .null = .ok [] := by
  rw [payload, except_bind_of_ok (payloadSize_null heap)]
  exact if_pos (Nat.zero_le _)

end Heap

/-- The allocated blocks are those of the live addresses. -/
theorem Sound.allocates_iff (sound : Sound heap live) (address : Address) (width : Nat) :
    heap.Allocates address width ↔
      address ∈ live ∧ ∃ bytes, heap.payload address = .ok bytes ∧ width = bytes.length + 8 := by
  obtain ⟨layout, describes, members⟩ := sound.layout
  constructor
  · intro allocates
    -- An allocated block gives its payload the address right behind its header.
    obtain ⟨offset, rfl⟩ : ∃ offset, address = ⟨offset + 8⟩ := by
      obtain ⟨-, -, view, -, -, place, -⟩ := allocates
      exact ⟨_, place⟩
    have held := (Heap.allocates_iff describes offset width).mp allocates
    obtain ⟨-, -, -, real, -⟩ := describes.held_bounds held
    refine ⟨(members _).mpr ⟨offset, width, held, rfl⟩, _, Heap.payload_of_held describes held, ?_⟩
    rw [Heap.length_contents]
    omega
  · rintro ⟨member, bytes, read, rfl⟩
    obtain ⟨offset, size, held, rfl⟩ := (members address).mp member
    obtain ⟨-, -, -, real, -⟩ := describes.held_bounds held
    rw [Heap.payload_of_held describes held] at read
    cases read
    rw [Heap.length_contents, Nat.sub_add_cancel (by omega)]
    exact (Heap.allocates_iff describes offset size).mpr held

/-- The sizes of some blocks in a row add up to the length of the stretch. -/
theorem Fills.stop_eq {first : Entry} {rest : List Entry} {stop : Nat}
    (fills : Fills first rest stop) :
    stop = first.stop + (rest.map (·.size)).sum := by
  induction fills with
  | nothing first => simp
  | block adjoins real clean tail ih =>
    have place := adjoins.place
    simp only [Entry.stop, List.map_cons, List.sum_cons] at *
    omega

/-- In which order the live addresses are listed does not matter. -/
theorem Sound.perm {others : List Address} (sound : Sound heap live) (same : live.Perm others) :
    Sound heap others := by
  obtain ⟨roomy, nodup, layout, describes, members⟩ := sound
  refine ⟨roomy, same.nodup_iff.mp nodup, layout, describes, fun address => ?_⟩
  rw [← same.mem_iff, members]

theorem Sound.unchanged (sound : Sound heap live) (same : Heap.Unchanged heap after) :
    Sound after live := by
  obtain ⟨roomy, nodup, layout, describes, members⟩ := sound
  obtain ⟨config, arena, lists⟩ := same
  rw [← arena, ← lists] at describes
  refine ⟨roomy.congr config ?_ ?_, nodup, layout, describes, members⟩
  · rw [arena]
  · rw [arena]

theorem Heap.Unchanged.payload (same : Heap.Unchanged heap after) (address : Address) :
    after.payload address = heap.payload address := by
  obtain ⟨-, arena, -⟩ := same
  simp only [Heap.payload, Heap.payloadSize, Heap.usableSize, arena]

theorem Sound.release (sound : Sound heap live) (permitted : address = .null ∨ address ∈ live) :
    Returns (Heap.release address) heap fun _ after =>
      Effect (.release address) live heap after (.ok .null) := by
  obtain ⟨layout, describes, members⟩ := sound.layout
  exact release_effect sound describes members permitted rfl rfl

theorem Sound.readable (sound : Sound heap live) (member : address ∈ live) :
    ∃ bytes, heap.payload address = .ok bytes := by
  obtain ⟨layout, describes, members⟩ := sound.layout
  obtain ⟨offset, size, held, rfl⟩ := (members address).mp member
  exact ⟨_, Heap.payload_of_held describes held⟩

theorem Sound.isNull_of_allocate {size : Nat} (sound : Sound heap live)
    (run : Heap.allocate size heap = .ok (.ok address) after) :
    address.isNull = true ↔ size = 0 := by
  obtain ⟨layout, describes, -⟩ := sound.layout
  rcases Heap.allocate_hands describes sound.roomy size with returns | ⟨fault, stops, -⟩
  · exact (returns.of_run run).isNull_iff
  · cases run.symm.trans stops

theorem Sound.isNull_of_resize {size : Nat} {old : Address} (sound : Sound heap live)
    (permitted : old = .null ∨ old ∈ live)
    (run : Heap.resize old size heap = .ok (.ok address) after) :
    address.isNull = true ↔ size = 0 := by
  rcases Nat.eq_zero_or_pos size with rfl | positive
  · have returns : Returns (Heap.resize old 0) heap fun answer _ => answer = .ok .null :=
      (sound.release permitted).bind fun _ _ _ => Returns.pure rfl
    cases returns.of_run run
    exact iff_of_true rfl rfl
  · rcases permitted with rfl | member
    · rw [Heap.resize_null positive] at run
      exact sound.isNull_of_allocate run
    · obtain ⟨layout, describes, members⟩ := sound.layout
      obtain ⟨offset, width, held, rfl⟩ := (members old).mp member
      rcases Heap.resize_hands describes sound.roomy held positive with returns | ⟨fault, stops, -⟩
      · exact (returns.of_run run).isNull_iff
      · cases run.symm.trans stops

namespace Replay

/-! ## Patterns -/

def patternBytes (id length : Nat) : List UInt8 :=
  (List.range length).map (pattern id)

theorem patternBytes_take (id : Nat) {length shorter : Nat} (short : shorter ≤ length) :
    (patternBytes id length).take shorter = patternBytes id shorter := by
  rw [patternBytes, ← List.map_take, List.take_range, Nat.min_eq_left short, patternBytes]

/-- A payload passes the check exactly if it starts with the pattern. -/
theorem intact_eq {length : Nat} (read : heap.payload address = .ok bytes)
    (fits : length ≤ bytes.length) (id : Nat) :
    intact id address length heap = .ok (decide (bytes.take length = patternBytes id length)) := by
  obtain ⟨size, whole⟩ := Heap.payloadSize_of_payload read
  rw [intact, except_bind_of_ok size, except_bind_of_ok (ensure_of_true _ (by simpa using fits))]
  refine congrArg Except.ok ?_
  rw [whole, Heap.contents_take _ _ fits, Heap.contents, patternBytes, Bool.eq_iff_iff,
    decide_eq_true_iff, List.map_inj_left, Nat.all_eq_finRange_all, List.all_eq_true]
  constructor
  · exact fun same index below =>
      beq_iff_eq.mp (same ⟨index, List.mem_range.mp below⟩ (List.mem_finRange _))
  · exact fun same index _ => beq_iff_eq.mpr (same index (List.mem_range.mpr index.isLt))

theorem intact_of_take {id length : Nat} (read : heap.payload address = .ok bytes)
    (fits : length ≤ bytes.length) (same : bytes.take length = patternBytes id length) :
    intact id address length heap = .ok true := by
  rw [intact_eq read fits, decide_eq_true same]

/-- A payload without bytes has the null address. Any other one has a block of the right size, which
starts with the pattern. -/
inductive Holds (heap : Heap) : LivePayload → Prop
  | empty (id : Nat) : Holds heap ⟨id, .null, 0⟩
  | block {id size : Nat} {address : Address} {bytes : List UInt8} (positive : 0 < size)
      (present : address.isNull = false) (read : heap.payload address = .ok bytes)
      (room : bytes.length = blockSize size - 8) (start : bytes.take size = patternBytes id size) :
      Holds heap ⟨id, address, size⟩

section Holds

variable {payload : LivePayload}

theorem Holds.readable (holds : Holds heap payload) : ∃ bytes,
    heap.payload payload.address = .ok bytes ∧ payload.size ≤ bytes.length
      ∧ bytes.take payload.size = patternBytes payload.id payload.size := by
  cases holds with
  | empty id => exact ⟨[], heap.payload_null, Nat.le_refl 0, rfl⟩
  | @block id size _ _ positive present read room start =>
    have bounds := blockSize_bounds size
    exact ⟨_, read, by simp only; omega, start⟩

theorem Holds.intact (holds : Holds heap payload) :
    intact payload.id payload.address payload.size heap = .ok true := by
  obtain ⟨bytes, read, fits, start⟩ := holds.readable
  exact intact_of_take read fits start

theorem Holds.isIntact (holds : Holds heap payload) : isIntact payload heap = .ok true := by
  unfold Replay.isIntact
  split
  · rfl
  · exact holds.intact

theorem Holds.congr (holds : Holds heap payload)
    (same : payload.address.isNull = false →
      after.payload payload.address = heap.payload payload.address) : Holds after payload := by
  cases holds with
  | empty id => exact .empty id
  | block positive present read room start =>
    exact .block positive present ((same present).trans read) room start

theorem Holds.present (holds : Holds heap payload) (positive : 0 < payload.size) :
    payload.address.isNull = false := by
  cases holds with
  | empty id => exact absurd positive (Nat.lt_irrefl 0)
  | block _ present => exact present

theorem Holds.length (holds : Holds heap payload) (positive : 0 < payload.size)
    (read : heap.payload payload.address = .ok bytes) :
    bytes.length + 8 = blockSize payload.size := by
  cases holds with
  | empty id => exact absurd positive (Nat.lt_irrefl 0)
  | @block id size _ _ _ _ also room =>
    have bounds := blockSize_bounds size
    cases read.symm.trans also
    simp only
    omega

end Holds

/-! ## Payloads and live addresses -/

/-- The addresses of those payloads that have one. -/
def addresses (payloads : List LivePayload) : List Address :=
  (payloads.map (·.address)).filter fun address => !address.isNull

theorem addresses_cons (payload : LivePayload) (rest : List LivePayload) :
    addresses (payload :: rest) = Call.handOut (addresses rest) payload.address := by
  unfold addresses
  cases null : payload.address.isNull with
  | true => simp [null, Call.handOut_of_null]
  | false => simp [null, Call.handOut_of_present]

theorem mem_addresses {payloads : List LivePayload} {payload : LivePayload}
    (member : payload ∈ payloads) (present : payload.address.isNull = false) :
    payload.address ∈ addresses payloads :=
  List.mem_filter.mpr ⟨List.mem_map_of_mem member, by simp [present]⟩

theorem exists_of_mem_addresses {payloads : List LivePayload}
    (member : address ∈ addresses payloads) :
    ∃ payload ∈ payloads, payload.address = address ∧ address.isNull = false := by
  obtain ⟨there, present⟩ := List.mem_filter.mp member
  obtain ⟨payload, inside, same⟩ := List.mem_map.mp there
  exact ⟨payload, inside, same, by simpa using present⟩

theorem eq_of_address {payloads : List LivePayload} {payload other : LivePayload}
    (nodup : (addresses payloads).Nodup) (here : payload ∈ payloads) (there : other ∈ payloads)
    (present : payload.address.isNull = false) (same : payload.address = other.address) :
    payload = other := by
  rw [addresses, List.filter_map] at nodup
  refine List.inj_on_of_nodup_map nodup (List.mem_filter.mpr ⟨here, ?_⟩)
    (List.mem_filter.mpr ⟨there, ?_⟩) same
  · simp [present]
  · simp [← same, present]

theorem null_or_mem (payload : LivePayload) (rest : List LivePayload) (kept : List Address) :
    payload.address = .null ∨ payload.address ∈ addresses (payload :: rest) ++ kept := by
  cases null : payload.address.isNull with
  | true => exact .inl (Address.eq_null null)
  | false => exact .inr (List.mem_append_left _ (mem_addresses List.mem_cons_self null))

theorem addresses_perm {payloads others : List LivePayload} (same : payloads.Perm others) :
    (addresses payloads).Perm (addresses others) :=
  (same.map _).filter _

theorem handOut_append (addresses kept : List Address) (extra : Address) :
    Call.handOut addresses extra ++ kept = Call.handOut (addresses ++ kept) extra := by
  unfold Call.handOut
  split <;> rfl

/-- An address that is handed out can be taken back. -/
theorem erase_handOut (absent : Address.null ∉ live)
    (nodup : (Call.handOut live address).Nodup) :
    (Call.handOut live address).erase address = live ∧ address ∉ live := by
  cases null : address.isNull with
  | true =>
    obtain rfl : address = .null := Address.eq_null null
    exact ⟨List.erase_of_not_mem absent, absent⟩
  | false =>
    rw [Call.handOut_of_present live null] at nodup ⊢
    exact ⟨List.erase_cons_head _ _, (List.nodup_cons.mp nodup).1⟩

/-- What spares the payloads of some addresses spares what is known of them. -/
theorem kept_of_same {start : Heap} {kept : List Address} {payloads : List LivePayload}
    (holds : ∀ payload ∈ payloads, Holds heap payload)
    (spared : ∀ address ∈ kept, heap.payload address = start.payload address)
    (same : ∀ address ∈ addresses payloads ++ kept, after.payload address = heap.payload address) :
    (∀ payload ∈ payloads, Holds after payload)
      ∧ ∀ address ∈ kept, after.payload address = start.payload address := by
  constructor
  · intro payload member
    refine (holds payload member).congr fun present => same _ ?_
    exact List.mem_append_left _ (mem_addresses member present)
  · intro address member
    rw [same address (List.mem_append_right _ member), spared address member]

/-- The bytes of some payloads together. -/
def total (payloads : List LivePayload) : Nat :=
  (payloads.map (·.size)).sum

/-- Payloads in different blocks have no more bytes than the blocks. -/
theorem total_le (blocks : List Entry) (payloads : List LivePayload)
    (nodup : (addresses payloads).Nodup)
    (homes : ∀ payload ∈ payloads, payload.size = 0 ∨ ∃ entry ∈ blocks,
      payload.address = ⟨entry.offset + 8⟩ ∧ payload.size ≤ entry.size) :
    total payloads ≤ (blocks.map (·.size)).sum := by
  induction payloads generalizing blocks with
  | nil => exact Nat.zero_le _
  | cons payload rest ih =>
    have split : total (payload :: rest) = payload.size + total rest := by simp [total]
    rw [addresses_cons] at nodup
    obtain ⟨home, homes⟩ := List.forall_mem_cons.mp homes
    rcases home with none | ⟨entry, member, place, fits⟩
    · have bound := ih blocks (nodup.sublist (Call.sublist_handOut _ _)) homes
      omega
    · rw [place, Call.handOut_payload, List.nodup_cons] at nodup
      -- No other payload is in this block, so the others fit into the other blocks.
      have bound := ih (blocks.erase entry) nodup.2 fun other there =>
        (homes other there).imp_right fun ⟨home, inside, address, small⟩ => by
          refine ⟨home, (List.mem_erase_of_ne ?_).mpr inside, address, small⟩
          rintro rfl
          rw [← address] at nodup
          exact nodup.1 (mem_addresses there (address ▸ Address.isNull_payload _))
      have whole := List.sum_map_erase (·.size) member
      omega

/-- An address that a call has answered with has room for a payload of a given size. -/
structure RoomFor (heap : Heap) (address : Address) (size : Nat) : Prop where
  null : address.isNull = true ↔ size = 0
  room : address.isNull = false → heap.usableSize address = .ok (blockSize size - 8)

/-- A fill is a write into one payload. -/
theorem fill_block {width size : Nat} (sound : Sound heap live) (member : address ∈ live)
    (usable : heap.usableSize address = .ok width) (fits : size ≤ width) (id : Nat) :
    Returns (fill ⟨id, address, size⟩) heap fun _ after =>
      Effect (.fill address 0) live heap after (.ok .null) ∧ ∃ bytes,
        after.payload address = .ok bytes ∧ bytes.length = width
          ∧ bytes.take size = patternBytes id size := by
  obtain ⟨layout, describes, members⟩ := sound.layout
  obtain ⟨offset, whole, held, rfl⟩ := (members address).mp member
  obtain ⟨-, -, -, real, high⟩ := describes.held_bounds held
  rw [Heap.usableSize_of_held describes held] at usable
  cases usable
  have written := Arena.writeBytes_returns heap.arena (offset + 8) size (pattern id) (by omega)
  unfold fill
  refine Returns.step (reading_of_ok (Heap.payloadSize_of_held describes held)) ?_
  refine Returns.step (lift_of_ok (ensure_of_true _ (by simpa using fits))) ?_
  refine (Heap.onArena_writes offset whole (by omega) (by omega) written).mono ?_
  rintro ⟨⟩ after ⟨writes, stored⟩
  -- Only bytes of this payload have changed, and the first of them are the pattern.
  refine ⟨effect_of_writes sound describes members held writes rfl rfl, _,
    Heap.payload_of_held (writes.describes describes held) held, Heap.length_contents _ _ _, ?_⟩
  rw [Heap.contents_take _ _ fits]
  exact List.map_congr_left fun index below => stored index (List.mem_range.mp below)

theorem fill_null (sound : Sound heap live) (id : Nat) :
    Returns (fill ⟨id, .null, 0⟩) heap fun _ after =>
      Effect (.fill .null 0) live heap after (.ok .null) := by
  obtain ⟨layout, describes, members⟩ := sound.layout
  have written := Arena.writeBytes_returns heap.arena 0 0 (pattern id) (Nat.zero_le _)
  have none (position : Nat) : ¬Span 0 (0 + 0) position := by
    unfold Span
    omega
  unfold fill
  refine Returns.step (reading_of_ok (Heap.payloadSize_null heap)) ?_
  refine Returns.step (lift_of_ok (ensure_of_true _ (by simp))) ?_
  refine (Heap.onArena_becomes_of_none none describes written).mono fun _ after same => ?_
  exact effect_of_same sound describes members same rfl null_of_answer nofun

/-- The heap hosts the payloads of a replay. There may be an address that has been handed out for a
payload that is still to be filled. What has been live since the start stays as it was. -/
structure Hosts (start : Heap) (kept : List Address) (extra : Address)
    (payloads : List LivePayload) (heap : Heap) : Prop where
  sound : Sound heap (Call.handOut (addresses payloads ++ kept) extra)
  numbered : (payloads.map (·.id)).Nodup
  holds : ∀ payload ∈ payloads, Holds heap payload
  spared : ∀ address ∈ kept, heap.payload address = start.payload address
  capacity : heap.arena.capacity = start.arena.capacity

namespace Hosts

variable {start : Heap} {kept : List Address} {extra : Address} {payloads : List LivePayload}
  {old : LivePayload} {call : Call}

theorem perm {others : List LivePayload} (hosts : Hosts start kept .null payloads heap)
    (same : payloads.Perm others) : Hosts start kept .null others heap := by
  obtain ⟨sound, numbered, holds, spared, capacity⟩ := hosts
  refine ⟨sound.perm ((addresses_perm same).append_right kept), ?_, ?_, spared, capacity⟩
  · exact (same.map _).nodup_iff.mp numbered
  · exact fun payload member => holds payload (same.mem_iff.mpr member)

/-- A payload without bytes may be counted in. -/
theorem cons_empty {id : Nat} (hosts : Hosts start kept .null payloads heap)
    (fresh : id ∉ payloads.map (·.id)) :
    Hosts start kept .null (⟨id, .null, 0⟩ :: payloads) heap := by
  obtain ⟨sound, numbered, holds, spared, capacity⟩ := hosts
  refine ⟨?_, List.nodup_cons.mpr ⟨fresh, numbered⟩, ?_, spared, capacity⟩
  · rw [addresses_cons]
    exact sound
  · exact List.forall_mem_cons.mpr ⟨.empty id, holds⟩

theorem unchanged (hosts : Hosts start kept .null payloads heap)
    (same : Heap.Unchanged heap after) : Hosts start kept .null payloads after := by
  obtain ⟨sound, numbered, holds, spared, capacity⟩ := hosts
  refine ⟨sound.unchanged same, numbered, fun payload member => ?_, fun address member => ?_, ?_⟩
  · exact (holds payload member).congr fun _ => same.payload _
  · rw [same.payload, spared address member]
  · rw [same.arena, capacity]

/-- What one payload adds to the live addresses can be taken away again. -/
theorem erase_head (hosts : Hosts start kept .null (old :: payloads) heap) :
    (addresses (old :: payloads) ++ kept).erase old.address = addresses payloads ++ kept
      ∧ old.address ∉ addresses payloads ++ kept := by
  have nodup : (addresses (old :: payloads) ++ kept).Nodup := hosts.sound.nodup
  have absent : Address.null ∉ addresses (old :: payloads) ++ kept := hosts.sound.not_null
  rw [addresses_cons, handOut_append] at nodup absent ⊢
  exact erase_handOut (fun member => absent ((Call.sublist_handOut _ _).subset member)) nodup

/-- The blocks of the payloads have no byte in common and lie between the two sentinels. -/
theorem total_add_le (hosts : Hosts start kept .null payloads heap) :
    total payloads + 16 ≤ heap.arena.hi := by
  obtain ⟨layout, describes, members⟩ := hosts.sound.layout
  have nodup : (addresses payloads).Nodup := (List.nodup_append.mp hosts.sound.nodup).1
  have top : heap.arena.hi - 8 = 8 + (layout.blocks.map (·.size)).sum :=
    describes.tiling.fills.stop_eq
  -- All payloads lie in blocks, and all blocks lie below the break.
  have bound := total_le layout.blocks payloads nodup fun payload member => ?_
  · omega
  cases hosts.holds payload member with
  | empty id => exact .inl rfl
  | @block id size address bytes positive present read room =>
    right
    have there := List.mem_append_left kept (mem_addresses member present)
    obtain ⟨offset, width, held, rfl⟩ := (members address).mp there
    rw [Heap.payload_of_held describes held] at read
    cases read
    have bounds := blockSize_bounds size
    obtain ⟨entry, inside, -, rfl, rfl⟩ := held
    rw [Heap.length_contents] at room
    exact ⟨entry, inside, rfl, by simp only; omega⟩

/-- So the sizes of the payloads add up to a machine word. -/
theorem total_lt (hosts : Hosts start kept .null payloads heap) : total payloads < wordLimit := by
  have bound := hosts.total_add_le
  have limit := heap.arena.hi_lt
  omega

/-- The allocated blocks are those from the start and those of the payloads that have bytes. -/
theorem allocates_iff (before : Sound start kept) (hosts : Hosts start kept .null payloads heap)
    (address : Address) (width : Nat) :
    heap.Allocates address width ↔ start.Allocates address width
      ∨ ∃ payload ∈ payloads, 0 < payload.size ∧ address = payload.address
        ∧ width = blockSize payload.size := by
  have sound : Sound heap (addresses payloads ++ kept) := hosts.sound
  rw [sound.allocates_iff, before.allocates_iff, List.mem_append, or_and_right, or_comm]
  -- Blocks from the start are told by their payloads, which have been spared.
  refine or_congr (and_congr_right fun member => by rw [hosts.spared address member]) ?_
  constructor
  · rintro ⟨member, bytes, read, rfl⟩
    obtain ⟨payload, there, rfl, present⟩ := exists_of_mem_addresses member
    have holds := hosts.holds payload there
    have positive : 0 < payload.size := by
      cases holds with
      | empty id => cases present
      | block positive => exact positive
    exact ⟨payload, there, positive, rfl, holds.length positive read⟩
  · rintro ⟨payload, there, positive, rfl, rfl⟩
    have holds := hosts.holds payload there
    have member := mem_addresses there (holds.present positive)
    obtain ⟨bytes, read⟩ := sound.readable (List.mem_append_left kept member)
    exact ⟨member, bytes, read, (holds.length positive read).symm⟩

/-- A call about one of the payloads leaves the others alone. -/
theorem call_returns (hosts : Hosts start kept .null (old :: payloads) heap) {new : Address}
    (effect : Effect call (addresses (old :: payloads) ++ kept) heap after (.ok new))
    (about : call.target = old.address) (goes : call ≠ .reset)
    (list : call.liveAfter (addresses (old :: payloads) ++ kept) (.ok new) =
      Call.handOut ((addresses (old :: payloads) ++ kept).erase old.address) new) :
    Hosts start kept new payloads after := by
  obtain ⟨erased, apart⟩ := hosts.erase_head
  -- The call spares all live addresses but the one that it is about.
  have same (address : Address) (member : address ∈ addresses payloads ++ kept) :
      after.payload address = heap.payload address := by
    refine (effect.spared goes address ?_ ?_).2
    · rw [← erased] at member
      exact List.mem_of_mem_erase member
    · rw [about]
      rintro rfl
      exact apart member
  have tail (payload : LivePayload) (member : payload ∈ payloads) : Holds heap payload :=
    hosts.holds payload (List.mem_cons_of_mem _ member)
  obtain ⟨holds, spared⟩ := kept_of_same tail hosts.spared same
  have sound := effect.sound
  rw [list, erased] at sound
  exact ⟨sound, (List.nodup_cons.mp hosts.numbered).2, holds, spared,
    effect.capacity.trans hosts.capacity⟩

/-- What has been handed out is aligned. -/
theorem aligned (hosts : Hosts start kept extra payloads heap) : isAligned extra = true := by
  cases null : extra.isNull with
  | true =>
    rw [Address.eq_null null]
    rfl
  | false =>
    have sound := hosts.sound
    rw [Call.handOut_of_present _ null] at sound
    exact beq_iff_eq.mpr (sound.apart List.mem_cons_self).1

/-- The bytes of a payload that has been moved start with the pattern as far as both sizes reach. -/
theorem moved {new : Address} {size : Nat}
    (hosts : Hosts start kept .null (old :: payloads) heap)
    (run : Heap.resize old.address size heap = .ok (.ok new) after)
    (later : Hosts start kept new payloads after) (positive : 0 < size)
    (present : new.isNull = false) :
    intact old.id new (min old.size size) after = .ok true := by
  have holds := hosts.holds old List.mem_cons_self
  have sound : Sound heap (addresses (old :: payloads) ++ kept) := hosts.sound
  cases holds with
  | empty id =>
    -- Nothing is compared, but the new payload is read all the same.
    have handed := later.sound
    rw [Call.handOut_of_present _ present] at handed
    obtain ⟨bytes, read⟩ := handed.readable List.mem_cons_self
    exact intact_of_take read (by simp) (by simp [patternBytes])
  | @block id before address bytes real there read room filled =>
    have head : (⟨id, address, before⟩ : LivePayload) ∈ ⟨id, address, before⟩ :: payloads :=
      List.mem_cons_self
    have member := List.mem_append_left kept (mem_addresses head there)
    obtain ⟨-, _, copy, -, also, readCopy, same⟩ := moved_of_run sound member positive run
    cases read.symm.trans also
    have bounds := blockSize_bounds before
    have length := congrArg List.length same
    rw [List.length_take, List.length_take] at length
    -- The copy agrees with the old payload, and that with the pattern, as far as both reach.
    refine intact_of_take readCopy (by simp only; omega) ?_
    calc copy.take (min before size)
        = (copy.take (min size bytes.length)).take (min before size) := by
          rw [List.take_take]
          congr 1
          omega
      _ = (bytes.take before).take (min before size) := by
          rw [same, List.take_take, List.take_take]
          congr 1
          omega
      _ = patternBytes id (min before size) := by
          rw [filled, patternBytes_take _ (Nat.min_le_left _ _)]

/-- A payload that is filled at an address just handed out is one more that the heap hosts. -/
theorem fill_returns {new : Address} {id size : Nat} (hosts : Hosts start kept new payloads heap)
    (fits : RoomFor heap new size) (fresh : id ∉ payloads.map (·.id)) :
    Returns (fill ⟨id, new, size⟩) heap fun _ after =>
      Hosts start kept .null (⟨id, new, size⟩ :: payloads) after := by
  cases null : new.isNull with
  | true =>
    obtain rfl : new = .null := Address.eq_null null
    obtain rfl : size = 0 := fits.null.mp null
    have counted := hosts.cons_empty fresh
    refine (fill_null counted.sound id).mono fun _ after effect => Hosts.cons_empty ?_ fresh
    refine counted.call_returns effect rfl nofun ?_
    exact (List.erase_of_not_mem counted.sound.not_null).symm
  | false =>
    -- The address is live already, and no payload has it.
    have list := Call.handOut_of_present (addresses payloads ++ kept) null
    have sound := hosts.sound
    rw [list] at sound
    have positive : 0 < size := Nat.pos_of_ne_zero fun zero => by
      simp [fits.null.mpr zero] at null
    have bounds := blockSize_bounds size
    refine (fill_block sound List.mem_cons_self (fits.room null) (by omega) id).mono ?_
    rintro ⟨⟩ after ⟨effect, bytes, read, room, filled⟩
    have apart := (List.nodup_cons.mp sound.nodup).1
    have same (address : Address) (member : address ∈ addresses payloads ++ kept) :
        after.payload address = heap.payload address := by
      refine (effect.spared nofun address (List.mem_cons_of_mem _ member) ?_).2
      rintro rfl
      exact apart member
    obtain ⟨holds, spared⟩ := kept_of_same hosts.holds hosts.spared same
    refine ⟨?_, List.nodup_cons.mpr ⟨fresh, hosts.numbered⟩, ?_, spared,
      effect.capacity.trans hosts.capacity⟩
    · rw [addresses_cons, handOut_append, list]
      exact effect.sound
    · exact List.forall_mem_cons.mpr ⟨.block positive null read room filled, holds⟩

end Hosts

end Replay

end BoundaryTag
