import BoundaryTag.Proofs.Outcomes

/-!
# The search after a growth

When a search fails no listed block is large enough, and a growth adds one free block or widens the
last one, so afterwards there is exactly one. The second search cannot miss it, however few
candidates it looks at and whatever class the joining has put the block in.
-/
namespace BoundaryTag

open Validator (Entry)

/-- The block is free, large enough and on a list. -/
structure Heap.Fitting (heap : Heap) (wanted : Nat) (block : Block) : Prop where
  free : ∃ header, block.header heap.arena = .ok header ∧ header.allocated = false
    ∧ wanted ≤ header.size
  listed : ∃ bucket members, heap.lists.members heap.arena bucket = .ok members ∧ block ∈ members

/-- The block is the only one on a list that is large enough. -/
structure Heap.OnlyFitting (heap : Heap) (wanted : Nat) (block : Block) : Prop
    extends Heap.Fitting heap wanted block where
  only : ∀ bucket members other width, heap.lists.members heap.arena bucket = .ok members →
    other ∈ members → other.size heap.arena = .ok width → wanted ≤ width → other = block

variable {heap after : Heap} {live : List Address} {layout : Layout} {size wanted : Nat}

namespace Heap

/-- An adjusted size is that of a block, also for no bytes. -/
theorem real_of_adjustedSize (adjusts : adjustedSize size = .ok (.ok wanted)) :
    wanted % 16 = 0 ∧ 16 ≤ wanted := by
  rcases Nat.eq_zero_or_pos size with rfl | positive
  · have least : adjustedSize 0 = .ok (.ok 16) := rfl
    cases least.symm.trans adjusts
    decide
  · obtain ⟨-, rfl⟩ := le_of_adjustedSize positive adjusts
    exact ⟨blockSize_mod size, blockSize_real positive⟩

/-- A free block of a described heap is on the list of its class. -/
theorem fitting_of_free {entry : Entry} (describes : layout.Describes heap.arena heap.lists)
    (member : entry ∈ layout.blocks) (free : entry.IsFree) (large : wanted ≤ entry.size) :
    heap.Fitting wanted ⟨entry.offset⟩ := by
  have draft := Draft.of_describes describes
  have present : entry ∈ layout.blocks ++ [heap.arena.epilogue] := List.mem_append_left _ member
  refine ⟨⟨entry.header, ?_, free, large⟩, _, _, describes.members (Bucket.classify entry.size), ?_⟩
  · exact Block.header_of_stored entry (draft.stored entry present) (draft.high entry present).1
  · exact List.mem_map_of_mem
      ((describes.listing.members _ _).mpr ⟨entry, member, free, rfl, rfl⟩)

/-- If no other free block is large enough, no other listed block is. -/
theorem onlyFitting_of_unique {joined : Entry}
    (describes : layout.Describes heap.arena heap.lists) (member : joined ∈ layout.blocks)
    (free : joined.IsFree) (large : wanted ≤ joined.size)
    (unique : ∀ entry ∈ layout.blocks, entry.IsFree → wanted ≤ entry.size → entry = joined) :
    heap.OnlyFitting wanted ⟨joined.offset⟩ := by
  refine ⟨fitting_of_free describes member free large, ?_⟩
  intro bucket members other width listed there measured enough
  cases (describes.members bucket).symm.trans listed
  obtain ⟨offset, chained, rfl⟩ := List.mem_map.mp there
  obtain ⟨entry, present, isFree, rfl, -⟩ := (describes.listing.members bucket offset).mp chained
  have draft := Draft.of_describes describes
  have here : entry ∈ layout.blocks ++ [heap.arena.epilogue] := List.mem_append_left _ present
  have read := Block.size_of_stored entry (draft.stored entry here) (draft.high entry here).1
  cases read.symm.trans measured
  rw [unique entry present isFree enough]

/-- A growth for a request that no free block can meet leaves exactly one that can. -/
theorem extend_onlyFitting {growth : Nat} {extended : Block}
    (describes : layout.Describes heap.arena heap.lists) (refuses : ¬Offers layout.blocks wanted)
    (multiple : growth % 16 = 0) (real : 16 ≤ growth) (enough : wanted ≤ growth)
    (grown : extend growth heap = .ok (.ok extended) after) :
    after.OnlyFitting wanted extended ∧ findFit wanted after = .ok (some extended) := by
  obtain ⟨below, fits, small⟩ := room_of_extend multiple grown
  obtain ⟨others, joined, described, -, -, member, free, wide, -, older, answered, -⟩ :=
    (extend_returns describes multiple real below fits small).of_run grown
  cases answered
  have large : wanted ≤ joined.size := Nat.le_trans enough wide
  -- What else is free was free before, and was not large enough.
  have unique : ∀ entry ∈ others.blocks, entry.IsFree → wanted ≤ entry.size → entry = joined := by
    intro entry there isFree also
    by_contra different
    exact refuses ⟨entry, older entry there isFree different, isFree, also⟩
  refine ⟨onlyFitting_of_unique described member free large unique, ?_⟩
  rcases findFit_of_describes described wanted with
    ⟨-, none⟩ | ⟨entry, there, isFree, also, found⟩
  · exact absurd ⟨joined, member, free, large⟩ none
  · rw [found, unique entry there isFree also]

end Heap

/-- When the search for an adjusted size fails and the growth that follows succeeds, the new block
is the only listed block that is large enough and the second search finds it. So what is cut is
always a listed free block that is large enough. -/
theorem retry_finds_extended (reachable : Reachable heap live)
    (adjusts : Heap.adjustedSize size = .ok (.ok wanted)) :
    (∀ extended after, Heap.findFit wanted heap = .ok none →
      Heap.extend (max wanted heap.config.chunkSize) heap = .ok (.ok extended) after →
        after.OnlyFitting wanted extended ∧ Heap.findFit wanted after = .ok (some extended)
          ∧ Heap.findBlock wanted heap = .ok (.ok extended) after)
      ∧ ∀ block middle, Heap.findBlock wanted heap = .ok (.ok block) middle →
        middle.Fitting wanted block := by
  obtain ⟨roomy, -, layout, describes, -⟩ := reachable.sound
  obtain ⟨multiple, real⟩ := Heap.real_of_adjustedSize adjusts
  constructor
  · intro extended after none grown
    have refuses : ¬Offers layout.blocks wanted := by
      rcases Heap.findFit_of_describes describes wanted with ⟨-, refuses⟩ | ⟨_, -, -, -, found⟩
      · exact refuses
      · cases none.symm.trans found
    have chunk := roomy.multiple
    obtain ⟨only, found⟩ :=
      Heap.extend_onlyFitting describes refuses (by omega) (by omega) (Nat.le_max_left _ _) grown
    refine ⟨only, found, ?_⟩
    rw [Heap.findBlock_eq_growBlock describes refuses, Heap.growBlock, bind_of_ok grown]
    exact bind_of_ok (reading_of_ok found)
  · intro block middle found
    obtain ⟨others, entry, described, member, free, large, rfl⟩ :=
      exists_of_findBlock describes roomy multiple real found
    exact Heap.fitting_of_free described member free large

/-- A heap of 64 KiB that has just been built grows for a request of 5000 bytes. -/
theorem retry_finds_extended_of_fresh : ∃ (heap after : Heap) (extended : Block),
    Reachable heap [] ∧ Heap.adjustedSize 5000 = .ok (.ok 5008)
      ∧ Heap.findFit 5008 heap = .ok none
      ∧ Heap.extend (max 5008 heap.config.chunkSize) heap = .ok (.ok extended) after
      ∧ after.OnlyFitting 5008 extended
      ∧ Heap.findBlock 5008 heap = .ok (.ok extended) after := by
  obtain ⟨heap, reachable, config, capacity, top⟩ := exists_fresh
  obtain ⟨-, -, layout, describes, -⟩ := reachable.sound
  have adjusts : Heap.adjustedSize 5000 = .ok (.ok 5008) := rfl
  have growth : max 5008 heap.config.chunkSize = 5008 := by rw [config]; decide
  have limit : 65536 ≤ Arena.bufferLimit := by decide
  -- The whole heap is smaller than the block asked for.
  have none : Heap.findFit 5008 heap = .ok none := by
    rcases Heap.findFit_of_describes describes 5008 with ⟨none, -⟩ | ⟨entry, member, -, large, -⟩
    · exact none
    · have bounds := describes.tiling.bounds member
      unfold Entry.stop at bounds
      omega
  obtain ⟨_, after, grown, _, joined, -, -, -, -, -, -, -, -, rfl, -⟩ :=
    Heap.extend_returns describes (show 5008 % 16 = 0 by decide) (by decide) (by decide) (by omega)
      (by omega)
  rw [← growth] at grown
  obtain ⟨only, -, found⟩ := (retry_finds_extended reachable adjusts).1 _ _ none grown
  exact ⟨heap, after, _, reachable, adjusts, none, grown, only, found⟩

end BoundaryTag
