import BoundaryTag.Proofs.Hosting
import BoundaryTag.Proofs.Lockstep

/-!
# How far a pattern tells payloads apart

A byte of a pattern is the low byte of a product that mixes the number of a payload into all higher
bits. The low byte depends on the low byte of the number only: patterns of numbers that differ there
have no byte in common at the same index, and numbers that agree there have the same pattern.
-/
namespace BoundaryTag

variable {heap after : Heap} {address : Address} {bytes : List UInt8} {length : Nat}

/-! ## Writing into a payload -/

theorem Block.offset_of_ofPayload {payload : Nat} {block : Block}
    (place : Block.ofPayload payload = .ok block) : block.offset + 8 = payload := by
  by_cases behind : 8 ≤ payload
  · obtain ⟨offset, rfl⟩ := Nat.exists_eq_add_of_le' behind
    cases (Block.ofPayload_add offset).symm.trans place
    rfl
  · rw [ofPayload, subWord, wordSize_eq, if_neg behind] at place
    cases place

namespace Heap

/-- The size of a payload stands before it, so writing into the payload does not change it. -/
theorem usableSize_confined {touched : Nat → Prop}
    (confined : Arena.Confined touched heap.arena after.arena)
    (behind : ∀ position, touched position → address.offset ≤ position)
    (inside : address.offset ≤ heap.arena.hi) :
    after.usableSize address = heap.usableSize address := by
  unfold usableSize
  split
  · rfl
  cases place : Block.ofPayload address.offset with
  | error => rfl
  | ok block =>
    have start := Block.offset_of_ofPayload place
    have word : after.arena.readWord block.offset = heap.arena.readWord block.offset := by
      refine readWord_congr confined.hi (by omega) (confined.word _ fun position here touches => ?_)
      have above := behind position touches
      unfold Span at here
      omega
    have size : block.size after.arena = block.size heap.arena := by
      rw [Block.size, Block.header, word, Block.size, Block.header]
    simp only [bind, Except.bind, size]

theorem payload_eq_ok_iff : heap.payload address = .ok bytes ↔
    heap.usableSize address = .ok bytes.length ∧ address.offset + bytes.length ≤ heap.arena.hi
      ∧ bytes = contents heap.arena address.offset bytes.length := by
  constructor
  · intro read
    obtain ⟨size, whole⟩ := payloadSize_of_payload read
    obtain ⟨width, usable, fits⟩ := exists_of_except_bind size
    split at fits
    next inside =>
      obtain rfl : width = bytes.length := Except.ok.inj fits
      exact ⟨usable, inside, whole⟩
    next => cases fits
  · rintro ⟨usable, inside, whole⟩
    rw [payload, payloadSize, except_bind_of_ok usable, if_pos inside]
    exact (if_pos inside).trans (congrArg Except.ok whole.symm)

theorem payload_confined {touched : Nat → Prop} (read : heap.payload address = .ok bytes)
    (confined : Arena.Confined touched heap.arena after.arena)
    (behind : ∀ position, touched position → address.offset ≤ position) :
    after.payload address = .ok (contents after.arena address.offset bytes.length) := by
  obtain ⟨usable, inside, -⟩ := payload_eq_ok_iff.mp read
  refine payload_eq_ok_iff.mpr ?_
  rw [usableSize_confined confined behind (by omega), confined.hi, length_contents]
  exact ⟨usable, inside, rfl⟩

end Heap

namespace Replay

/-! ## Patterns -/

/-- A byte of the pattern depends on low bytes only. -/
theorem pattern_eq_low (id index : Nat) :
    pattern id index = UInt8.ofNat id * 0xB9 ^^^ UInt8.ofNat index * 31 := by
  rw [pattern, UInt64.toUInt8_xor, UInt64.toUInt8_mul, UInt64.toUInt8_mul, UInt64.toUInt8_ofNat',
    UInt64.toUInt8_ofNat']
  rfl

/-- At each index two patterns agree exactly if the numbers have the same low byte. -/
theorem pattern_eq_iff (first second index : Nat) :
    pattern first index = pattern second index ↔ first % 256 = second % 256 := by
  have odd : UInt8.toNat 0xB9 = 185 := rfl
  rw [pattern_eq_low, pattern_eq_low, UInt8.xor_left_inj, ← UInt8.toNat_inj, UInt8.toNat_mul,
    UInt8.toNat_mul, UInt8.toNat_ofNat', UInt8.toNat_ofNat', odd]
  omega

theorem patternBytes_eq_iff (positive : 0 < length) (first second : Nat) :
    patternBytes first length = patternBytes second length ↔ first % 256 = second % 256 := by
  rw [patternBytes, patternBytes, List.map_inj_left]
  constructor
  · exact fun same => (pattern_eq_iff first second 0).mp (same 0 (List.mem_range.mpr positive))
  · exact fun same index _ => (pattern_eq_iff first second index).mpr same

/-! ## Filling and looking again -/

/-- A payload that is filled starts with the pattern, in whatever heap it can be read. -/
theorem fill_returns (read : heap.payload address = .ok bytes) (fits : length ≤ bytes.length)
    (id : Nat) : Returns (fill ⟨id, address, length⟩) heap fun _ after => ∃ filled,
      after.payload address = .ok filled ∧ filled.length = bytes.length
        ∧ filled.take length = patternBytes id length := by
  obtain ⟨size, -⟩ := Heap.payloadSize_of_payload read
  obtain ⟨-, inside, -⟩ := Heap.payload_eq_ok_iff.mp read
  unfold fill
  refine Returns.step (reading_of_ok size) ?_
  refine Returns.step (lift_of_ok (ensure_of_true _ (by simpa using fits))) ?_
  refine (Heap.onArena_returns
    (Arena.writeBytes_returns heap.arena address.offset length (pattern id) (by omega))).mono ?_
  rintro ⟨⟩ after ⟨-, confined, stored⟩
  refine ⟨_, Heap.payload_confined read confined fun _ touches => touches.1,
    Heap.length_contents _ _ _, ?_⟩
  rw [Heap.contents_take _ _ fits]
  exact List.map_congr_left fun index below => stored index (List.mem_range.mp below)

/-- Whatever fills a payload, it passes the check for the numbers with the same low byte only. -/
theorem fill_intact (read : heap.payload address = .ok bytes) (fits : length ≤ bytes.length)
    (positive : 0 < length) (first second : Nat) :
    Returns (fill ⟨first, address, length⟩) heap fun _ after =>
      intact second address length after = .ok (decide (first % 256 = second % 256)) := by
  refine (fill_returns read fits first).mono ?_
  rintro ⟨⟩ after ⟨filled, written, same, start⟩
  rw [intact_eq written (by omega), start]
  exact congrArg Except.ok (decide_eq_decide.mpr (patternBytes_eq_iff positive first second))

end Replay

/-- A payload of 8 bytes or more that is filled for one number is rejected for every number with
another low byte, from its first byte on, and for no other number. -/
theorem fill_tells_apart (read : heap.payload address = .ok bytes) (fits : length ≤ bytes.length)
    (least : 8 ≤ length) (first second : Nat) :
    ∃ after, Replay.fill ⟨first, address, length⟩ heap = .ok () after
      ∧ (first % 256 ≠ second % 256 →
        Replay.intact second address length after = .ok false
          ∧ ∀ index, Replay.pattern first index ≠ Replay.pattern second index)
      ∧ (first % 256 = second % 256 →
        Replay.intact second address length after = .ok true) := by
  obtain ⟨⟨⟩, after, run, checked⟩ := Replay.fill_intact read fits (by omega) first second
  refine ⟨after, run, fun different => ⟨?_, fun index same => ?_⟩, fun same => ?_⟩
  · rw [checked, decide_eq_false different]
  · exact different ((Replay.pattern_eq_iff first second index).mp same)
  · rw [checked, decide_eq_true same]

/-- A new heap hands out a payload of 8 bytes or more. -/
theorem exists_payload : ∃ (empty heap : Heap) (address : Address) (bytes : List UInt8),
    Reachable empty [] ∧ Heap.allocate 100 empty = .ok (.ok address) heap
      ∧ heap.payload address = .ok bytes ∧ 8 ≤ bytes.length := by
  obtain ⟨empty, heap, -, address, -, fresh, run, reachable, -⟩ := exists_run
  obtain ⟨-, -, layout, describes, members⟩ := reachable.sound
  obtain ⟨offset, size, held, rfl⟩ := (members address).mp (List.mem_singleton_self address)
  have bounds := describes.held_bounds held
  refine ⟨empty, heap, _, _, fresh, run, Heap.payload_of_held describes held, ?_⟩
  rw [Heap.length_contents]
  omega

/-- What is filled for the number 1 is rejected for the number 2. -/
theorem fill_tells_apart_of_small : ∃ (empty heap after : Heap) (address : Address),
    Reachable empty [] ∧ Heap.allocate 100 empty = .ok (.ok address) heap
      ∧ Replay.fill ⟨1, address, 8⟩ heap = .ok () after
      ∧ Replay.intact 2 address 8 after = .ok false := by
  obtain ⟨empty, heap, address, bytes, fresh, handed, read, wide⟩ := exists_payload
  obtain ⟨after, run, apart, -⟩ := fill_tells_apart read wide (Nat.le_refl 8) 1 2
  exact ⟨empty, heap, after, address, fresh, handed, run, (apart (by decide)).1⟩

/-- What is filled for the number 0 is accepted for the number 256. -/
theorem fill_confuses_of_low_byte : ∃ (empty heap after : Heap) (address : Address)
    (bytes : List UInt8), Reachable empty [] ∧ Heap.allocate 100 empty = .ok (.ok address) heap
      ∧ heap.payload address = .ok bytes ∧ 8 ≤ bytes.length ∧ 0 ≠ 256
      ∧ Replay.fill ⟨0, address, 8⟩ heap = .ok () after
      ∧ Replay.intact 256 address 8 after = .ok true := by
  obtain ⟨empty, heap, address, bytes, fresh, handed, read, wide⟩ := exists_payload
  obtain ⟨⟨⟩, after, run, checked⟩ := Replay.fill_intact read wide (by decide) 0 256
  exact ⟨empty, heap, after, address, bytes, fresh, handed, read, wide, by decide, run, checked⟩

end BoundaryTag
