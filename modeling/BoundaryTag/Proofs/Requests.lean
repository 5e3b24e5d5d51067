import BoundaryTag.Proofs.Runs

/-!
# Requests that return

A size is rounded up twice: to the size of its block, and once more when the arena has to grow by
that block. The check on sizes leaves room for the first rounding only. A request for one of the
fifteen sizes in between overflows in the second one, in every heap, and every other request is met
or refused.
-/
namespace BoundaryTag

open Validator (Entry)

variable {heap : Heap} {live : List Address} {layout : Layout} {call : Call}

/-- The fifteen sizes are those whose block size cannot be rounded up. -/
theorem blockSize_of_overlong {size : Nat} (overlong : Heap.Overlong size) :
    blockSize size = wordLimit - 16 := by
  obtain ⟨above, below⟩ := overlong
  simp only [blockSize, wordLimit] at *
  omega

/-- No free block is as large as the address space. -/
theorem not_offers_of_overlong {size : Nat} (overlong : Heap.Overlong size)
    (tiling : Tiling heap.arena layout.blocks) : ¬Offers layout.blocks (blockSize size) := by
  rintro ⟨entry, member, -, large⟩
  have bounds := tiling.bounds member
  have limit := heap.arena.hi_lt
  rw [blockSize_of_overlong overlong] at large
  simp only [Entry.stop, wordLimit] at *
  omega

theorem allocate_of_overlong {size : Nat} (overlong : Heap.Overlong size)
    (describes : layout.Describes heap.arena heap.lists) :
    Heap.allocate size heap = .error .overflow heap := by
  have offers := not_offers_of_overlong overlong describes.tiling
  have width := blockSize_of_overlong overlong
  obtain ⟨above, fits⟩ := overlong
  simp only [wordLimit] at above width
  apply Heap.allocate_of_overflow describes (by omega) fits offers rfl
  simp only [wordLimit]
  omega

/-- A call that asks for memory. -/
def Call.AsksForMemory : Call → Prop
  | allocate _ | zeroAllocate _ _ | resize _ _ => True
  | release _ | reset | write _ _ _ | fill _ _ => False

/-- A request for memory starts with an allocation of its size, and faults if that does. -/
theorem Call.run_of_overlong (asks : call.AsksForMemory) (permitted : call.Permitted live)
    (overlong : Heap.Overlong call.size) (describes : layout.Describes heap.arena heap.lists)
    (members : ∀ address, address ∈ live ↔ Owned (Held layout.blocks) address) :
    call.run heap = .error .overflow heap := by
  have stops := allocate_of_overlong overlong describes
  cases call with
  | allocate size => exact stops
  | zeroAllocate count size =>
    -- The product is checked first, but an overlong size is still a machine word.
    have below : ¬wordLimit ≤ count * size := by
      have fits := overlong.2
      simp only [Call.size, wordLimit] at *
      omega
    simp only [Call.run, Heap.zeroAllocate, if_neg below]
    exact bind_of_error stops
  | resize address size =>
    have positive : 0 < size := by
      have above := overlong.1
      simp only [Call.size, wordLimit] at above
      omega
    rcases permitted with null | member
    · obtain rfl : address = .null := null
      exact (Heap.resize_null positive heap).trans stops
    · obtain ⟨offset, width, held, rfl⟩ := (members address).mp member
      have read : reading (fun heap : Heap => heap.usableSize ⟨offset + 8⟩) heap =
          .ok (width - 8) heap := reading_of_ok (Heap.usableSize_of_held describes held)
      rw [Call.run, Heap.resize, if_neg (Nat.ne_of_gt positive), Address.isNull_payload,
        if_neg Bool.false_ne_true]
      exact (bind_of_ok read).trans (bind_of_error stops)
  | release | reset | write | fill => exact asks.elim

/-- A request for memory that is not overlong is met or refused. -/
theorem Call.answers_of_not_overlong (sound : Sound heap live)
    (growable : heap.arena.backing = .buffer → heap.arena.capacity ≤ Arena.bufferLimit)
    (permitted : call.Permitted live) (short : ¬Heap.Overlong call.size) :
    ∃ answer after, call.run heap = .ok answer after
      ∧ ∀ error, answer = .error error → error.IsRefusal := by
  rcases answers_of_sound sound permitted with ⟨answer, after, run, effect⟩ | ⟨fault, -, halts⟩
  · exact ⟨answer, after, run, fun error refused => (effect.refused error refused).1⟩
  · cases halts with
    | overflow overlong => exact absurd overlong short
    | oversized kind room large =>
      have limit := growable kind
      omega

/-- A request for memory from a reachable heap whose arena can grow up to its capacity answers with
an address or with a refusal, unless its size is one of the fifteen that are accepted but cannot be
rounded up twice. -/
theorem request_returns (reachable : Reachable heap live)
    (growable : heap.arena.backing = .buffer → heap.arena.capacity ≤ Arena.bufferLimit)
    (permitted : call.Permitted live) (asks : call.AsksForMemory) :
    (¬Heap.Overlong call.size → ∃ answer after, call.run heap = .ok answer after
        ∧ ∀ error, answer = .error error → error.IsRefusal)
      ∧ (Heap.Overlong call.size → call.run heap = .error .overflow heap) := by
  have sound := reachable.sound
  obtain ⟨layout, describes, members⟩ := sound.layout
  exact ⟨Call.answers_of_not_overlong sound growable permitted,
    fun overlong => Call.run_of_overlong asks permitted overlong describes members⟩

/-- A heap that serves a small request is stopped by the largest size that is accepted. -/
theorem request_returns_of_fresh : ∃ heap : Heap, Reachable heap []
    ∧ (∃ answer after, (Call.allocate 100).run heap = .ok answer after)
    ∧ (Call.allocate 18446744073709551591).run heap = .error .overflow heap := by
  obtain ⟨heap, reachable, -, capacity, -⟩ := exists_fresh
  have growable : heap.arena.backing = .buffer → heap.arena.capacity ≤ Arena.bufferLimit := by
    rw [capacity]
    exact fun _ => by decide
  have small : (Call.allocate 100).Permitted [] := .inl rfl
  have large : (Call.allocate 18446744073709551591).Permitted [] := .inl rfl
  obtain ⟨answer, after, run, -⟩ := (request_returns reachable growable small trivial).1 (by decide)
  have stops := (request_returns reachable growable large trivial).2 (by decide)
  exact ⟨heap, reachable, ⟨answer, after, run⟩, stops⟩

/-- Not every permitted request for memory returns: a fresh heap of the default capacity overflows
at the largest size that passes the check on sizes. -/
theorem exists_request_overflows : ∃ heap : Heap,
    Heap.new (.buffer Arena.defaultCapacity) {} = .ok (.ok heap)
      ∧ heap.arena.capacity ≤ Arena.bufferLimit
      ∧ Heap.allocate 18446744073709551591 heap = .error .overflow heap := by
  have roomy : (Heap.unbuilt (.buffer Arena.defaultCapacity) {}).Roomy := by
    constructor <;> decide
  obtain ⟨heap, built, ⟨layout, describes, -⟩, -, -, capacity, -⟩ := Heap.new_of_roomy rfl roomy
  refine ⟨heap, built, ?_, allocate_of_overlong (by decide) describes⟩
  rw [capacity]
  decide

end BoundaryTag
