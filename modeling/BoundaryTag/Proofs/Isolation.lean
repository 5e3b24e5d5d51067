import BoundaryTag.Proofs.Blocks
import BoundaryTag.Proofs.Runs

/-!
# Isolation of payloads

Seen from outside, a heap is a table of live addresses with the bytes behind each of them. A call
adds or drops the entry that it is about, a write changes one entry, and all other entries stay,
whatever the heap does to its blocks meanwhile.
-/
namespace BoundaryTag

open Validator (Entry)

/-- The call writes into a payload. -/
def Call.IsWrite : Call → Prop
  | write _ _ _ | fill _ _ => True
  | _ => False

/-- What callers can rely on when a call returns. -/
structure Isolates (call : Call) (live : List Address) (before after : Heap)
    (answer : Except AllocError Address) : Prop where
  /-- An address that is handed out is new and aligned, its block has room for the bytes asked for,
  lies between the sentinels and has no byte in common with the block of another live address. -/
  apart : ∀ address, answer = .ok address → address ≠ .null → address ∉ live
    ∧ address ∈ call.liveAfter live answer ∧ address.offset % 16 = 0
    ∧ ∃ width, after.usableSize address = .ok width ∧ call.size ≤ width
      ∧ 16 ≤ address.offset ∧ address.offset + width ≤ after.arena.hi - 8
      ∧ ∀ other ∈ call.liveAfter live answer, other ≠ address → ∃ size,
        after.usableSize other = .ok size
          ∧ (address.offset + width ≤ other.offset - 8 ∨ other.offset + size ≤ address.offset - 8)
  /-- All other payloads stay. -/
  spared : call ≠ .reset → ∀ address ∈ live, address ≠ call.target →
    address ∈ call.liveAfter live answer ∧ ∃ bytes,
      before.payload address = .ok bytes ∧ after.payload address = .ok bytes
  /-- A payload that is moved keeps as many of its bytes as both blocks hold. -/
  moved : ∀ address size moved, call = .resize address size → address ∈ live → 0 < size →
    answer = .ok moved → address ∉ call.liveAfter live answer ∧ ∃ old new,
      before.usableSize address = .ok old.length
        ∧ before.payload address = .ok old ∧ after.payload moved = .ok new
        ∧ new.take (min size old.length) = old.take (min size old.length)
  /-- A cleared payload starts with zeros. -/
  cleared : ∀ count size address, call = .zeroAllocate count size → 0 < count * size →
    answer = .ok address → ∃ bytes, after.payload address = .ok bytes
      ∧ bytes.take (count * size) = List.replicate (count * size) 0
  /-- A write changes nothing but the payload that it is about. -/
  written : call.IsWrite → call.target ∈ live → ∃ width,
    before.usableSize call.target = .ok width
      ∧ (∀ position, position < call.target.offset ∨ call.target.offset + width ≤ position →
        after.arena.byte position = before.arena.byte position)
      ∧ after.blocks = before.blocks ∧ after.lists = before.lists
  /-- What is written into a payload, as far as it fits, is there. -/
  stored : ∀ address index bytes, call = .write address index bytes → address ∈ live → ∃ width,
    before.usableSize address = .ok width
      ∧ ∀ place < min bytes.size (width - min index width),
        after.arena.byte (address.offset + min index width + place) = Bytes.get bytes place

section Parts

variable {heap after : Heap} {live : List Address} {call : Call}
  {answer : Except AllocError Address}

/-- Live addresses are aligned, and their blocks lie between the sentinels without overlaps. -/
theorem Sound.apart (sound : Sound heap live) {address : Address} (member : address ∈ live) :
    address.offset % 16 = 0 ∧ ∃ width, heap.usableSize address = .ok width
      ∧ 16 ≤ address.offset ∧ address.offset + width ≤ heap.arena.hi - 8
      ∧ ∀ other ∈ live, other ≠ address → ∃ size, heap.usableSize other = .ok size
        ∧ (address.offset + width ≤ other.offset - 8
          ∨ other.offset + size ≤ address.offset - 8) := by
  obtain ⟨layout, describes, members⟩ := sound.layout
  obtain ⟨offset, size, held, rfl⟩ := (members address).mp member
  obtain ⟨aligned, -, low, real, high⟩ := describes.held_bounds held
  refine ⟨?_, size - 8, Heap.usableSize_of_held describes held, ?_, ?_, ?_⟩
  · change (offset + 8) % 16 = 0
    omega
  · change 16 ≤ offset + 8
    omega
  · change offset + 8 + (size - 8) ≤ heap.arena.hi - 8
    omega
  · intro other there different
    obtain ⟨place, width, also, rfl⟩ := (members other).mp there
    obtain ⟨-, -, -, wide, -⟩ := describes.held_bounds also
    refine ⟨width - 8, Heap.usableSize_of_held describes also, ?_⟩
    have clear := describes.held_apart held also fun same => different (by rw [same])
    change offset + 8 + (size - 8) ≤ place + 8 - 8 ∨ place + 8 + (width - 8) ≤ offset + 8 - 8
    omega

theorem moved_of_run (sound : Sound heap live) {address moved : Address} {size : Nat}
    (member : address ∈ live) (positive : 0 < size)
    (run : Heap.resize address size heap = .ok (.ok moved) after) :
    address ∉ (Call.resize address size).liveAfter live (.ok moved) ∧ ∃ old new,
      heap.usableSize address = .ok old.length
        ∧ heap.payload address = .ok old ∧ after.payload moved = .ok new
        ∧ new.take (min size old.length) = old.take (min size old.length) := by
  obtain ⟨layout, describes, members⟩ := sound.layout
  obtain ⟨offset, old, held, rfl⟩ := (members address).mp member
  rcases Heap.resize_hands describes sound.roomy held positive with returns | ⟨fault, stops, -⟩
  case inr => cases run.symm.trans stops
  cases returns.of_run run with
  | nothing none => exact absurd none (Nat.ne_of_gt positive)
  | block start _ fresh becomes copied =>
    obtain ⟨others, described, holds⟩ := becomes.layout
    have new := (holds start _).mpr (.inr ⟨rfl, rfl⟩)
    have bounds := blockSize_bounds size
    have list : (Call.resize ⟨offset + 8⟩ size).liveAfter live (.ok ⟨start + 8⟩) =
        ⟨start + 8⟩ :: live.erase ⟨offset + 8⟩ := Call.handOut_payload _ start
    refine ⟨?_, _, _, ?_, Heap.payload_of_held describes held,
      Heap.payload_of_held described new, ?_⟩
    · rw [list, List.mem_cons]
      rintro (same | later)
      · obtain rfl : offset = start := Nat.add_right_cancel (Address.mk.inj same)
        exact fresh old held
      · exact sound.nodup.not_mem_erase later
    · rw [Heap.length_contents]
      exact Heap.usableSize_of_held describes held
    · rw [Heap.length_contents, Nat.min_comm, Heap.contents_take _ _ (by omega),
        Heap.contents_take _ _ (by omega)]
      exact copied

theorem cleared_of_run (sound : Sound heap live) {address : Address} {count size : Nat}
    (positive : 0 < count * size)
    (run : Heap.zeroAllocate count size heap = .ok (.ok address) after) :
    ∃ bytes, after.payload address = .ok bytes
      ∧ bytes.take (count * size) = List.replicate (count * size) 0 := by
  obtain ⟨layout, describes, -⟩ := sound.layout
  rcases Heap.zeroAllocate_hands describes sound.roomy count size with returns | ⟨fault, stops, -⟩
  case inr => cases run.symm.trans stops
  cases returns.of_run run with
  | nothing none => exact absurd none (Nat.ne_of_gt positive)
  | block start _ _ becomes zero =>
    obtain ⟨others, described, holds⟩ := becomes.layout
    have new := (holds start _).mpr (.inr ⟨rfl, rfl⟩)
    have bounds := blockSize_bounds (count * size)
    refine ⟨_, Heap.payload_of_held described new, ?_⟩
    rw [Heap.contents_take _ _ (by omega)]
    refine List.eq_replicate_iff.mpr ⟨Heap.length_contents _ _ _, fun byte member => ?_⟩
    obtain ⟨index, below, rfl⟩ := List.mem_map.mp member
    exact zero index (List.mem_range.mp below)

/-- Headers, links and footers are read as before after a write into a payload. -/
theorem Heap.Writes.blocks {layout : Layout} {offset size : Nat}
    (writes : Heap.Writes offset size heap after)
    (describes : layout.Describes heap.arena heap.lists) (held : Held layout.blocks offset size) :
    after.blocks = heap.blocks := by
  rw [Heap.blocks_of_describes (writes.describes describes held),
    Heap.blocks_of_describes describes]
  obtain ⟨taken, here, allocated, rfl, rfl⟩ := held
  -- The view of an allocated block depends on its header only, so what is left are free blocks.
  refine congrArg Except.ok (List.map_congr_left fun entry there => entry.view_congr fun free => ?_)
  have different : entry ≠ taken := by
    rintro rfl
    exact Entry.not_free_of_allocated allocated free
  have clear := describes.tiling.clear there here different
  have real := describes.tiling.real entry there
  unfold Entry.Clear Entry.Before Entry.stop at clear
  constructor
  · refine writes.confined.word _ fun position inside touches => ?_
    unfold Span at inside touches
    omega
  · refine fun large => writes.confined.word _ fun position inside touches => ?_
    unfold Span at inside touches
    omega

theorem write_returns {layout : Layout} {offset size : Nat}
    (describes : layout.Describes heap.arena heap.lists) (held : Held layout.blocks offset size)
    (index : Nat) (bytes : ByteArray) :
    Returns (Call.write ⟨offset + 8⟩ index bytes).run heap fun _ after =>
      Heap.Writes offset size heap after
        ∧ ∀ place < min bytes.size (size - 8 - min index (size - 8)),
          after.arena.byte (offset + 8 + min index (size - 8) + place) = Bytes.get bytes place := by
  refine (Heap.writePayload_returns describes held index bytes).bind ?_
  rintro _ after ⟨rfl, writes, stored⟩
  exact Returns.pure ⟨writes, stored⟩

theorem writes_of_run {layout : Layout} {offset size : Nat}
    (describes : layout.Describes heap.arena heap.lists) (held : Held layout.blocks offset size)
    (write : call.IsWrite) (about : call.target = ⟨offset + 8⟩)
    (run : call.run heap = .ok answer after) : Heap.Writes offset size heap after := by
  cases call with
  | write address index bytes =>
    obtain rfl : address = ⟨offset + 8⟩ := about
    exact ((write_returns describes held index bytes).of_run run).1
  | fill address byte =>
    obtain rfl : address = ⟨offset + 8⟩ := about
    have returns : Returns (Call.fill ⟨offset + 8⟩ byte).run heap fun _ after =>
        Heap.Writes offset size heap after :=
      (Heap.fillPayload_returns describes held byte).bind fun _ _ filled => Returns.pure filled.2.1
    exact returns.of_run run
  | allocate | zeroAllocate | resize | release | reset => exact write.elim

end Parts

/-- In a reachable heap every call that returns keeps payloads apart. -/
theorem payloads_isolated {heap after : Heap} {live : List Address} {call : Call}
    {answer : Except AllocError Address} (reachable : Reachable heap live)
    (permitted : call.Permitted live) (run : call.run heap = .ok answer after) :
    Isolates call live heap after answer := by
  have sound := reachable.sound
  obtain ⟨later, spared, granted⟩ := effect_of_run sound permitted run
  obtain ⟨layout, describes, members⟩ := sound.layout
  constructor
  case apart =>
    intro address answered present
    have nonzero : address.isNull = false := by
      refine eq_false_of_ne_true fun isNull => present ?_
      exact congrArg Address.mk (beq_iff_eq.mp isNull)
    obtain ⟨fresh, member, usable⟩ := granted address answered nonzero
    obtain ⟨aligned, width, also, low, high, others⟩ := later.apart member
    obtain rfl : blockSize call.size - 8 = width := Except.ok.inj (usable.symm.trans also)
    have bounds := blockSize_bounds call.size
    exact ⟨fresh, member, aligned, _, usable, by omega, low, high, others⟩
  case spared =>
    intro different address member other
    obtain ⟨kept, same⟩ := spared different address member other
    obtain ⟨offset, size, held, rfl⟩ := (members address).mp member
    have bytes := Heap.payload_of_held describes held
    exact ⟨kept, _, bytes, same.trans bytes⟩
  case moved =>
    rintro address size moved rfl member positive rfl
    exact moved_of_run sound member positive run
  case cleared =>
    rintro count size address rfl positive rfl
    exact cleared_of_run sound positive run
  case written =>
    intro write member
    obtain ⟨offset, size, held, about⟩ := (members call.target).mp member
    have writes := writes_of_run describes held write about run
    rw [about]
    refine ⟨size - 8, Heap.usableSize_of_held describes held, fun position outside => ?_,
      writes.blocks describes held, writes.lists⟩
    refine writes.confined.byte position fun inside => ?_
    unfold Span at inside
    change position < offset + 8 ∨ offset + 8 + (size - 8) ≤ position at outside
    omega
  case stored =>
    rintro address index bytes rfl member
    obtain ⟨offset, size, held, rfl⟩ := (members address).mp member
    refine ⟨size - 8, Heap.usableSize_of_held describes held, ?_⟩
    exact ((write_returns describes held index bytes).of_run run).2

/-- In a heap with two live addresses, an allocation of zeros hands out a third one, a resize moves
the first payload and keeps its bytes, and a write into the first payload changes what stands there
and nothing else. The second payload stays as it is. -/
theorem payloads_isolated_of_two : ∃ (heap : Heap) (first second : Address),
    Reachable heap [second, first]
      ∧ (∃ address after bytes, Heap.zeroAllocate 4 16 heap = .ok (.ok address) after
        ∧ address ∉ [second, first] ∧ after.payload address = .ok bytes
        ∧ bytes.take 64 = List.replicate 64 0)
      ∧ (∃ moved after old new, Heap.resize first 300 heap = .ok (.ok moved) after
        ∧ first ∉ (Call.resize first 300).liveAfter [second, first] (.ok moved)
        ∧ heap.payload first = .ok old ∧ after.payload moved = .ok new
        ∧ new.take (min 300 old.length) = old.take (min 300 old.length))
      ∧ ∃ answer after bytes, (Call.write first 0 ⟨#[7]⟩).run heap = .ok answer after
        ∧ after.arena.byte first.offset = 7 ∧ after.blocks = heap.blocks
        ∧ heap.payload second = .ok bytes ∧ after.payload second = .ok bytes := by
  obtain ⟨-, -, heap, first, second, ⟨-, -, -, -, -, reachable⟩, config, capacity, top⟩ :=
    exists_run_with_room
  have chunk : heap.config.chunkSize = 4096 := by rw [config]
  have limit : 65536 ≤ Arena.bufferLimit := by decide
  have sizes : max (blockSize (4 * 16)) 4096 = 4096 ∧ max (blockSize 300) 4096 = 4096 := by decide
  have live : first ∈ [second, first] := .tail _ (.head _)
  have sound := reachable.sound
  refine ⟨heap, first, second, reachable, ?_, ?_, ?_⟩
  · obtain ⟨offset, after, run⟩ := reachable.zeroAllocate 4 16 (by decide) (by omega) (by omega)
    have permitted : (Call.zeroAllocate 4 16).Permitted [second, first] := .inl rfl
    have isolates := payloads_isolated reachable permitted run
    obtain ⟨bytes, read, zero⟩ := isolates.cleared 4 16 _ rfl (by decide) rfl
    have present : (⟨offset + 8⟩ : Address) ≠ .null := nofun
    exact ⟨_, after, bytes, run, (isolates.apart _ rfl present).1, read, zero⟩
  · obtain ⟨offset, after, run⟩ := reachable.resize live 300 (by decide) (by omega) (by omega)
    have permitted : (Call.resize first 300).Permitted [second, first] := .inr live
    have isolates := payloads_isolated reachable permitted run
    obtain ⟨gone, old, new, -, before, later, same⟩ :=
      isolates.moved first 300 _ rfl live (by decide) rfl
    exact ⟨_, after, old, new, run, gone, before, later, same⟩
  · obtain ⟨layout, describes, members⟩ := sound.layout
    obtain ⟨offset, size, held, rfl⟩ := (members first).mp live
    obtain ⟨answer, after, run, -⟩ := write_returns describes held 0 ⟨#[7]⟩
    have permitted : (Call.write ⟨offset + 8⟩ 0 ⟨#[7]⟩).Permitted [second, ⟨offset + 8⟩] :=
      .inr live
    have isolates := payloads_isolated reachable permitted run
    obtain ⟨width, usable, stored⟩ := isolates.stored _ 0 ⟨#[7]⟩ rfl live
    obtain ⟨-, -, -, blocks, -⟩ := isolates.written trivial live
    have different : second ≠ ⟨offset + 8⟩ :=
      fun same => (List.nodup_cons.mp sound.nodup).1 (same ▸ .head _)
    obtain ⟨-, bytes, before, later⟩ := isolates.spared nofun second (.head _) different
    -- A block has room for a byte behind its header.
    obtain ⟨-, -, -, real, -⟩ := describes.held_bounds held
    obtain rfl : size - 8 = width :=
      Except.ok.inj ((Heap.usableSize_of_held describes held).symm.trans usable)
    have byte := stored 0 (by change 0 < min 1 _; omega)
    rw [Nat.zero_min] at byte
    exact ⟨answer, after, bytes, run, byte, blocks, before, later⟩

end BoundaryTag
