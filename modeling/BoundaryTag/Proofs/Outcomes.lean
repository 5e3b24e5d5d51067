import BoundaryTag.Proofs.Blocks
import BoundaryTag.Proofs.Runs
import Mathlib.Order.Bounds.Basic

/-!
# The outcome of an allocation

In a reachable heap the statistics and the room left in the arena decide what an allocation answers:
it is met from the free blocks, it is met from an arena that grows once, or it is refused with the
amount that the arena should have grown by. The block that is handed out has the least size that
holds the payload and its header, whatever block it was cut from.
-/
namespace BoundaryTag

open Validator (Entry)

theorem isLeast_blockSize (size : Nat) :
    IsLeast {width | 16 ∣ width ∧ size + 8 ≤ width} (blockSize size) := by
  obtain ⟨holds, tight⟩ := blockSize_bounds size
  refine ⟨⟨Nat.dvd_of_mod_eq_zero (blockSize_mod size), holds⟩, ?_⟩
  rintro width ⟨multiple, enough⟩
  have aligned := blockSize_mod size
  have also := Nat.mod_eq_zero_of_dvd multiple
  omega

variable {heap after : Heap} {live : List Address} {layout : Layout} {size : Nat}
  {answer : Except AllocError Address}

/-- What an allocation that returns has answered when no free block was large enough. -/
theorem allocate_of_refused (describes : layout.Describes heap.arena heap.lists)
    (roomy : heap.Roomy) (positive : 0 < size) (fits : size ≤ wordLimit - 1 - 24)
    (refuses : ¬Offers layout.blocks (blockSize size)) {growth : Nat}
    (grows : growth = max (blockSize size) heap.config.chunkSize)
    (run : Heap.allocate size heap = .ok answer after) :
    (heap.arena.hi + growth ≤ heap.arena.capacity →
        (∃ address, answer = .ok address) ∧ after.arena.hi = heap.arena.hi + growth)
      ∧ (heap.arena.capacity < heap.arena.hi + growth → answer =
        .error
          (.outOfMemory growth (.exhausted growth (heap.arena.capacity - heap.arena.hi)))) := by
  -- The call has returned, which leaves out the two reasons for which it could have stopped.
  have below : growth + 16 < wordLimit := by
    by_contra above
    have stops :=
      Heap.allocate_of_overflow describes positive fits refuses grows (Nat.not_lt.mp above)
    cases run.symm.trans stops
  constructor
  · intro room
    have small : ¬(heap.arena.backing = .buffer ∧ Arena.bufferLimit < heap.arena.hi + growth) := by
      intro large
      have stops :=
        Heap.allocate_of_oversized describes positive fits refuses grows roomy below room large
      cases run.symm.trans stops
    have returns :=
      Heap.allocate_of_grown describes positive fits refuses grows roomy below room small
    obtain ⟨offset, answered, higher, -⟩ := returns.of_run run
    exact ⟨⟨_, answered⟩, higher⟩
  · intro beyond
    have returns := Heap.allocate_of_exhausted describes positive fits refuses grows roomy below
      (Nat.not_le_of_lt beyond)
    exact (returns.of_run run).1

/-- The block that is cut is a free block of the heap that the search leaves. -/
theorem exists_of_findBlock (describes : layout.Describes heap.arena heap.lists)
    (roomy : heap.Roomy) {wanted : Nat} (multiple : wanted % 16 = 0) (real : 16 ≤ wanted)
    {block : Block} {middle : Heap} (found : Heap.findBlock wanted heap = .ok (.ok block) middle) :
    ∃ (others : Layout) (entry : Entry), others.Describes middle.arena middle.lists
      ∧ entry ∈ others.blocks ∧ entry.IsFree ∧ wanted ≤ entry.size ∧ block = ⟨entry.offset⟩ := by
  by_cases offers : Offers layout.blocks wanted
  · obtain ⟨rfl, entry, member, free, large, answered⟩ :=
      (Heap.findBlock_of_offers describes offers).of_run found
    cases answered
    exact ⟨layout, entry, describes, member, free, large, rfl⟩
  rw [Heap.findBlock_eq_growBlock describes offers] at found
  have chunk := roomy.multiple
  have aligned : max wanted heap.config.chunkSize % 16 = 0 := by omega
  obtain ⟨below, room, small⟩ := Heap.room_of_growBlock aligned found
  obtain ⟨others, entry, described, -, member, free, enough, answered, -⟩ :=
    (Heap.growBlock_returns describes aligned (by omega) (Nat.le_max_left _ _) below room
      small).of_run found
  cases answered
  exact ⟨others, entry, described, member, free, enough, rfl⟩

/-- The exact outcome of an allocation in a reachable heap. -/
theorem allocate_outcome (reachable : Reachable heap live) (positive : 1 ≤ size)
    (run : Heap.allocate size heap = .ok answer after) {wanted growth : Nat}
    (least : IsLeast {width | 16 ∣ width ∧ size + 8 ≤ width} wanted)
    (grows : growth = max wanted heap.config.chunkSize) :
    (wordLimit - 1 - 24 < size → answer = .error (.tooLarge size))
      ∧ (size ≤ wordLimit - 1 - 24 → ∃ blocks statistics,
        heap.blocks = .ok blocks ∧ heap.statistics = .ok statistics
          ∧ ((∃ view ∈ blocks, view.isFree = true ∧ wanted ≤ view.size) ↔
            wanted ≤ statistics.largestFree)
          ∧ (wanted ≤ statistics.largestFree →
            (∃ address, answer = .ok address) ∧ after.arena.hi = heap.arena.hi)
          ∧ (statistics.largestFree < wanted → heap.arena.hi + growth ≤ heap.arena.capacity →
            (∃ address, answer = .ok address) ∧ after.arena.hi = heap.arena.hi + growth)
          ∧ (statistics.largestFree < wanted → heap.arena.capacity < heap.arena.hi + growth →
            answer = .error (.outOfMemory growth
              (.exhausted growth (heap.arena.capacity - heap.arena.hi)))))
      ∧ (∀ address, answer = .ok address → after.usableSize address = .ok (wanted - 8))
      ∧ ∀ block middle, Heap.findBlock wanted heap = .ok (.ok block) middle → ∃ width,
        block.size middle.arena = .ok width ∧ wanted ≤ width
          ∧ (width - wanted < minBlockSize → width = wanted) := by
  obtain ⟨roomy, -, layout, describes, -⟩ := reachable.sound
  obtain rfl : wanted = blockSize size := least.unique (isLeast_blockSize size)
  -- What the statistics say about the largest free block is what the layout says about all of them.
  have positiveSize : 0 < blockSize size := Nat.lt_of_lt_of_le (by decide) (blockSize_real positive)
  have largest := le_largestFree_iff heap.arena.hi (layout.blocks.map (·.view heap.arena))
    (blockSize size) positiveSize
  have offers_iff :=
    largest.trans (exists_view_iff_offers layout.blocks heap.arena (blockSize size))
  refine ⟨fun large => ?_, fun fits => ⟨_, _, Heap.blocks_of_describes describes,
    Heap.statistics_of_describes describes, largest.symm, ?_, ?_, ?_⟩, ?_, ?_⟩
  · cases run.symm.trans (Heap.allocate_of_large ⟨layout, describes⟩ large)
    rfl
  · intro large
    obtain ⟨offset, answered, same, -⟩ :=
      (Heap.allocate_of_offers describes positive fits (offers_iff.mp large)).of_run run
    exact ⟨⟨_, answered⟩, same⟩
  · intro small
    have refuses := mt offers_iff.mpr (Nat.not_le_of_lt small)
    exact (allocate_of_refused describes roomy positive fits refuses grows run).1
  · intro small
    have refuses := mt offers_iff.mpr (Nat.not_le_of_lt small)
    exact (allocate_of_refused describes roomy positive fits refuses grows run).2
  · rintro address rfl
    rcases Heap.allocate_hands describes roomy size with returns | ⟨fault, stops, -⟩
    · cases returns.of_run run with
      | nothing none => exact absurd none (Nat.ne_of_gt positive)
      | block start _ _ becomes _ =>
        obtain ⟨others, described, holds⟩ := becomes.layout
        exact Heap.usableSize_of_held described ((holds _ _).mpr (.inr ⟨rfl, rfl⟩))
    · cases run.symm.trans stops
  · intro block middle found
    obtain ⟨others, entry, described, member, -, enough, rfl⟩ :=
      exists_of_findBlock describes roomy (blockSize_mod size) (blockSize_real positive) found
    have bounds := described.tiling.bounds member
    have read := Block.size_of_stored entry (described.tiling.stored entry member) (by
      unfold Entry.stop at bounds
      omega)
    -- Both sizes are multiples of 16, so a rest smaller than a block is no rest.
    have aligned := blockSize_mod size
    have multiple := entry.size_mod
    refine ⟨entry.size, read, enough, fun close => ?_⟩
    rw [minBlockSize_eq] at close
    omega

/-- A request for 200 bytes gets a block of 208. -/
theorem allocate_outcome_of_two : ∃ (heap after : Heap) (second : Address),
    Heap.allocate 200 heap = .ok (.ok second) after ∧ after.usableSize second = .ok 200 := by
  obtain ⟨-, heap, after, first, second, -, -, reachable, config, run, -⟩ := exists_run
  have grows : 4096 = max (blockSize 200) heap.config.chunkSize := by rw [config]; rfl
  have outcome := allocate_outcome reachable (by decide) run (isLeast_blockSize 200) grows
  exact ⟨heap, after, second, run, outcome.2.2.1 second rfl⟩

end BoundaryTag
