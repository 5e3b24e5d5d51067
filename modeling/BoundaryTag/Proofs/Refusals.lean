import BoundaryTag.Proofs.Hosting
import BoundaryTag.Proofs.Requests

/-!
# Refused requests

A request for memory that is refused is refused before anything is written: the heap is the same as
before in all but its journal, so whatever was live goes on being live with the same bytes. What is
refused for its number of items is exactly what has no size that a machine word can hold; such a
request is told by its factors, and no other refusal is told so.
-/
namespace BoundaryTag

variable {heap after : Heap} {live : List Address} {call : Call} {error : AllocError}
  {count size : Nat}

theorem Heap.Unchanged.eq_journal (same : Heap.Unchanged heap after) :
    after = { heap with journal := after.journal } := by
  obtain ⟨config, arena, lists⟩ := same
  cases heap
  cases after
  simp_all

/-- A refused request neither adds a live address nor takes one away. -/
theorem Call.liveAfter_of_refused (asks : call.AsksForMemory) (live : List Address)
    (error : AllocError) : call.liveAfter live (.error error) = live := by
  cases call with
  | allocate | zeroAllocate | resize => rfl
  | release | reset | write | fill => exact asks.elim

/-! ## Requests for items -/

theorem Heap.zeroAllocate_of_large (large : wordLimit ≤ count * size) (heap : Heap) :
    Heap.zeroAllocate count size heap = .ok (.error (.overflow count size)) heap := by
  rw [Heap.zeroAllocate, if_pos large]
  rfl

/-- An allocation is never refused for a number of items. -/
theorem Sound.not_overflow_of_allocate (sound : Sound heap live) {width : Nat}
    (run : Heap.allocate size heap = .ok (.error error) after) :
    error ≠ .overflow count width := by
  obtain ⟨roomy, -, layout, describes, -⟩ := sound
  rcases Heap.allocate_spec describes roomy size with returns | ⟨fault, fails, -⟩
  · cases returns.of_run run with
    | refused _ reason _ => cases reason <;> simp
  · cases run.symm.trans fails

theorem Sound.zeroAllocate_overflow_iff (sound : Sound heap live) (count size : Nat) :
    (∃ items width after,
        Heap.zeroAllocate count size heap = .ok (.error (.overflow items width)) after) ↔
      wordLimit ≤ count * size := by
  constructor
  · intro ⟨items, width, after, run⟩
    by_cases large : wordLimit ≤ count * size
    · exact large
    · -- The product is a machine word, so the answer is that of an allocation.
      rw [Heap.zeroAllocate, if_neg large] at run
      obtain ⟨answer, middle, allocates, run⟩ := exists_of_bind run
      cases answer with
      | error source =>
        cases run
        exact absurd rfl (sound.not_overflow_of_allocate allocates)
      | ok address =>
        obtain ⟨-, _, -, run⟩ := exists_of_bind run
        cases run
  · intro large
    exact ⟨count, size, heap, Heap.zeroAllocate_of_large large heap⟩

/-! ## All requests -/

/-- A request for memory that a reachable heap refuses leaves the heap as it was but for its
journal: every byte, the break and the heads of the lists. All live payloads, that of the request
among them, are still live and hold the same bytes. A request for items is refused as an overflow
exactly if their total size is beyond the machine words. -/
theorem refused_leaves_heap (reachable : Reachable heap live) :
    (∀ (call : Call) (error : AllocError) (after : Heap), call.AsksForMemory → call.Permitted live →
      call.run heap = .ok (.error error) after →
        error.IsRefusal ∧ after = { heap with journal := after.journal } ∧ Reachable after live
          ∧ ∀ address ∈ live, ∃ bytes,
            heap.payload address = .ok bytes ∧ after.payload address = .ok bytes)
      ∧ ∀ count size, (∃ items width after,
          Heap.zeroAllocate count size heap = .ok (.error (.overflow items width)) after) ↔
        wordLimit ≤ count * size := by
  have sound := reachable.sound
  constructor
  · intro call error after asks permitted refuses
    obtain ⟨reason, same⟩ := (effect_of_run sound permitted refuses).refused error rfl
    have next := reachable.step permitted refuses
    rw [Call.liveAfter_of_refused asks] at next
    refine ⟨reason, same.eq_journal, next, fun address member => ?_⟩
    obtain ⟨bytes, read⟩ := sound.readable member
    exact ⟨bytes, read, (same.payload address).trans read⟩
  · exact sound.zeroAllocate_overflow_iff

/-- A heap of 64 KiB cannot move a payload to a block of 100 KB, and keeps it where it is. -/
theorem refused_leaves_heap_of_resize : ∃ (heap after : Heap) (address : Address)
    (error : AllocError) (bytes : List UInt8), Reachable heap [address]
      ∧ Heap.resize address 100000 heap = .ok (.error error) after
      ∧ after = { heap with journal := after.journal } ∧ Reachable after [address]
      ∧ after.payload address = .ok bytes := by
  obtain ⟨empty, built, config, capacity, top⟩ := exists_fresh
  have chunk : empty.config.chunkSize = 4096 := by rw [config]
  obtain ⟨address, heap, -, reachable, kept, same, -⟩ :=
    built.allocate 100 (by decide) (by simp [top, chunk, capacity, blockSize])
      (by simp [capacity, Arena.bufferLimit])
  obtain ⟨roomy, -, layout, describes, members⟩ := reachable.sound
  -- No block is larger than the arena, and the arena cannot grow to the size of this one.
  have limit : heap.arena.capacity = 65536 := same.trans capacity
  have wide : blockSize 100000 = 100016 := rfl
  have refuses : ¬Offers layout.blocks (blockSize 100000) := by
    rintro ⟨entry, there, -, large⟩
    have bounds := (describes.tiling.bounds there).2
    have below := heap.arena.hi_le_capacity
    simp only [Validator.Entry.stop] at bounds
    omega
  have growth : 100016 = max (blockSize 100000) heap.config.chunkSize := by
    rw [kept, chunk, wide]
    rfl
  obtain ⟨_, after, exhausted, rfl, -⟩ := Heap.allocate_of_exhausted describes
    (by decide) (by decide) refuses growth roomy (by decide) (by omega)
  have live : address ∈ [address] := List.mem_singleton_self address
  obtain ⟨offset, width, held, rfl⟩ := (members address).mp live
  have read : reading (fun heap : Heap => heap.usableSize ⟨offset + 8⟩) heap =
      .ok (width - 8) heap := reading_of_ok (Heap.usableSize_of_held describes held)
  have run : Heap.resize ⟨offset + 8⟩ 100000 heap = _ :=
    (bind_of_ok read).trans (bind_of_ok exhausted)
  obtain ⟨-, unchanged, next, payloads⟩ := (refused_leaves_heap reachable).1
    (.resize ⟨offset + 8⟩ 100000) _ after trivial (.inr live) run
  obtain ⟨bytes, -, contents⟩ := payloads _ live
  exact ⟨heap, after, _, _, bytes, reachable, run, unchanged, next, contents⟩

end BoundaryTag
