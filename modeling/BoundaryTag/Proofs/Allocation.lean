import BoundaryTag.Proofs.Reset

/-!
# Allocation

A request is met from a free block that is large enough, if there is one, and from an arena that
grows otherwise. Either way the outcome is fixed by the free blocks and the room left in the arena,
and the block that is handed out has the wanted size exactly.
-/
namespace BoundaryTag

open Validator (Entry)

/-- The block size for a payload: a header more, rounded up to the alignment unit. -/
def blockSize (size : Nat) : Nat :=
  (size + 23) / 16 * 16

theorem blockSize_mod (size : Nat) : blockSize size % 16 = 0 := by
  unfold blockSize
  omega

theorem blockSize_bounds (size : Nat) : size + 8 ≤ blockSize size ∧ blockSize size < size + 24 := by
  unfold blockSize
  omega

theorem blockSize_real {size : Nat} (positive : 0 < size) : 16 ≤ blockSize size := by
  unfold blockSize
  omega

/-- What a request for memory may be refused with: every error but that of a heap not built. -/
def AllocError.IsRefusal : AllocError → Prop
  | .tooLarge _ | .overflow _ _ | .outOfMemory _ _ => True
  | .config _ => False

/-- Some free block has room for this many bytes. -/
def Offers (blocks : List Entry) (wanted : Nat) : Prop :=
  ∃ entry ∈ blocks, entry.IsFree ∧ wanted ≤ entry.size

/-- Nothing else is held where a free block starts. -/
theorem Tiling.not_held {arena : Arena} {blocks : List Entry} {entry : Entry}
    (tiling : Tiling arena blocks) (member : entry ∈ blocks) (free : entry.IsFree) (size : Nat) :
    ¬Held blocks entry.offset size := by
  rintro ⟨other, there, allocated, start, -⟩
  have same := tiling.eq_of_offset there member start
  subst same
  exact Entry.not_free_of_allocated allocated free

namespace Heap

variable {heap : Heap} {layout : Layout} {size wanted : Nat}

theorem adjustedSize_of_le (fits : size ≤ wordLimit - 1 - 24) (positive : 0 < size) :
    adjustedSize size = .ok (.ok (blockSize size)) := by
  have room : size + 24 < wordLimit := by
    unfold wordLimit at *
    omega
  have sum : addWord size 8 = .ok (size + 8) := addWord_of_lt size 8 (by omega)
  have rounded : align (size + 8) = .ok (blockSize size) := align_of_lt (size + 8) (by omega)
  have real : max (blockSize size) 16 = blockSize size := by
    unfold blockSize
    omega
  have small : ¬wordLimit - 1 - (wordSize + alignment) < size := Nat.not_lt.mpr fits
  rw [adjustedSize, if_neg small, wordSize_eq, minBlockSize_eq]
  simp only [sum, rounded, bind, Except.bind, pure, Except.pure, real]

theorem adjustedSize_of_lt (large : wordLimit - 1 - 24 < size) :
    adjustedSize size = .ok (.error (.tooLarge size)) :=
  if_pos large

/-- A size that can be adjusted is adjusted to that of the block for it. -/
theorem le_of_adjustedSize (positive : 0 < size) (adjusts : adjustedSize size = .ok (.ok wanted)) :
    size ≤ wordLimit - 1 - 24 ∧ wanted = blockSize size := by
  by_cases fits : size ≤ wordLimit - 1 - 24
  · rw [adjustedSize_of_le fits positive] at adjusts
    cases adjusts
    exact ⟨fits, rfl⟩
  · rw [adjustedSize_of_lt (Nat.lt_of_not_le fits)] at adjusts
    cases adjusts

theorem findBlock_of_found {block : Block} (found : findFit wanted heap = .ok (some block)) :
    findBlock wanted heap = .ok (.ok block) heap := by
  unfold findBlock
  rw [bind_of_ok (reading_of_ok found)]
  rfl

/-- The search finds a free block that is large enough if there is one, and only such a block. -/
theorem findFit_of_describes (describes : layout.Describes heap.arena heap.lists) (wanted : Nat) :
    (findFit wanted heap = .ok none ∧ ¬Offers layout.blocks wanted)
      ∨ ∃ entry ∈ layout.blocks, entry.IsFree ∧ wanted ≤ entry.size
        ∧ findFit wanted heap = .ok (some ⟨entry.offset⟩) := by
  have tiling := describes.tiling
  have members := describes.listing.members
  rcases FreeLists.findFit_spec (FreeLists.chained_of_listed describes.listed) wanted
      heap.config.fitCandidates with
    ⟨found, small⟩ | ⟨bucket, offset, member, large, found⟩
  · refine .inl ⟨found, ?_⟩
    rintro ⟨entry, there, free, large⟩
    have listed := (members (Bucket.classify entry.size) entry.offset).mpr
      ⟨entry, there, free, rfl, rfl⟩
    have less := small _ _ listed
    rw [tiling.sizeAt there] at less
    omega
  · obtain ⟨entry, there, free, rfl, -⟩ := (members bucket offset).mp member
    rw [tiling.sizeAt there] at large
    exact .inr ⟨entry, there, free, large, found⟩

theorem findBlock_of_offers (describes : layout.Describes heap.arena heap.lists)
    (offers : Offers layout.blocks wanted) :
    Returns (findBlock wanted) heap fun result after => after = heap
      ∧ ∃ entry ∈ layout.blocks, entry.IsFree ∧ wanted ≤ entry.size
        ∧ result = .ok ⟨entry.offset⟩ := by
  rcases findFit_of_describes describes wanted with
    ⟨-, refuses⟩ | ⟨entry, member, free, large, found⟩
  · exact absurd offers refuses
  · exact .of_eq (findBlock_of_found found) ⟨rfl, entry, member, free, large, rfl⟩

/-- What a search does when no free block is large enough. -/
def growBlock (wanted growth : Nat) : HeapM (Except AllocError Block) := do
  match ← extend growth with
  | .error error => return .error error
  | .ok extended => return .ok ((← reading (findFit wanted)).getD extended)

theorem findBlock_eq_growBlock (describes : layout.Describes heap.arena heap.lists)
    (refuses : ¬Offers layout.blocks wanted) :
    findBlock wanted heap = growBlock wanted (max wanted heap.config.chunkSize) heap := by
  have read : reading (fun heap : Heap => pure heap.config.chunkSize) heap =
      .ok heap.config.chunkSize heap := rfl
  rcases findFit_of_describes describes wanted with ⟨found, -⟩ | ⟨entry, member, free, large, -⟩
  · unfold findBlock
    rw [bind_of_ok (reading_of_ok found)]
    exact bind_of_ok read
  · exact absurd ⟨entry, member, free, large⟩ refuses

section Growth

variable {growth : Nat}

/-- The retry finds a block, and if it did not then the new one would do. -/
theorem growBlock_returns (describes : layout.Describes heap.arena heap.lists)
    (multiple : growth % 16 = 0) (real : 16 ≤ growth) (enough : wanted ≤ growth)
    (below : growth + 16 < wordLimit)
    (fits : heap.arena.hi + growth ≤ heap.arena.capacity)
    (small : ¬(heap.arena.backing = .buffer ∧ Arena.bufferLimit < heap.arena.hi + growth)) :
    Returns (growBlock wanted growth) heap fun result after =>
      ∃ (others : Layout) (entry : Entry), others.Describes after.arena after.lists
        ∧ (∀ offset width, Held others.blocks offset width ↔ Held layout.blocks offset width)
        ∧ entry ∈ others.blocks ∧ entry.IsFree ∧ wanted ≤ entry.size
        ∧ result = .ok ⟨entry.offset⟩ ∧ after.arena.hi = heap.arena.hi + growth
        ∧ Preserves layout.blocks heap after := by
  unfold growBlock
  refine (extend_returns describes multiple real below fits small).bind ?_
  rintro _ after
    ⟨others, joined, described, held, -, member, free, wide, -, -, rfl, higher, preserves⟩
  -- The new block is listed and large enough, but the search may prefer another one.
  rcases findFit_of_describes described wanted with
    ⟨found, -⟩ | ⟨entry, there, isFree, large, found⟩
  · refine Returns.step (reading_of_ok found) ?_
    exact Returns.pure
      ⟨others, joined, described, held, member, free, by omega, rfl, higher, preserves⟩
  · refine Returns.step (reading_of_ok found) ?_
    exact Returns.pure
      ⟨others, entry, described, held, there, isFree, large, rfl, higher, preserves⟩

theorem room_of_growBlock {block : Block} {after : Heap} (multiple : growth % 16 = 0)
    (found : growBlock wanted growth heap = .ok (.ok block) after) :
    growth + 16 < wordLimit ∧ heap.arena.hi + growth ≤ heap.arena.capacity
      ∧ ¬(heap.arena.backing = .buffer ∧ Arena.bufferLimit < heap.arena.hi + growth) := by
  obtain ⟨result, middle, grown, rest⟩ := exists_of_bind found
  cases result with
  | error => cases rest
  | ok => exact room_of_extend multiple grown

theorem growBlock_of_exhausted (multiple : growth % 16 = 0) (below : growth + 16 < wordLimit)
    (beyond : ¬heap.arena.hi + growth ≤ heap.arena.capacity) :
    Returns (growBlock wanted growth) heap fun result after =>
      result = .error
          (.outOfMemory growth (.exhausted growth (heap.arena.capacity - heap.arena.hi)))
        ∧ Unchanged heap after := by
  unfold growBlock
  refine (extend_of_exhausted multiple below beyond).bind ?_
  rintro _ after ⟨rfl, same⟩
  exact Returns.pure ⟨rfl, same⟩

theorem growBlock_of_fault {fault : Fault} (fails : extend growth heap = .error fault heap) :
    growBlock wanted growth heap = .error fault heap := by
  unfold growBlock
  exact bind_of_error fails

end Growth

def serve (size wanted : Nat) (block : Block) : HeapM (Except AllocError Address) := do
  place block wanted
  let address : Address := ⟨← block.payload⟩
  record (.allocated size address (← readArena block.size))
  reading (verify .afterAllocate)
  return .ok address

/-- There is one more allocated block, at a place where there was none, and nothing of the others
has changed. -/
structure Gains (blocks : List Entry) (offset width : Nat) (before after : Heap) : Prop where
  layout : ∃ others : Layout, others.Describes after.arena after.lists
    ∧ ∀ other size, Held others.blocks other size ↔
      Held blocks other size ∨ (other = offset ∧ size = width)
  fresh : ∀ size, ¬Held blocks offset size
  preserves : Preserves blocks before after

theorem Gains.grown {blocks others : List Entry} {offset width : Nat} {before middle after : Heap}
    (held : ∀ other size, Held others other size ↔ Held blocks other size)
    (preserves : Preserves blocks before middle) (gains : Gains others offset width middle after) :
    Gains blocks offset width before after := by
  obtain ⟨⟨layout, describes, holds⟩, fresh, later⟩ := gains
  refine ⟨⟨layout, describes, fun other size => ?_⟩, fun size => ?_, ?_⟩
  · rw [holds, held]
  · rw [← held]
    exact fresh size
  · exact preserves.trans later fun other size => (held other size).mpr

theorem serve_returns {entry : Entry} (size : Nat)
    (describes : layout.Describes heap.arena heap.lists) (member : entry ∈ layout.blocks)
    (free : entry.IsFree) (aligned : wanted % 16 = 0) (real : 16 ≤ wanted)
    (large : wanted ≤ entry.size) :
    Returns (serve size wanted ⟨entry.offset⟩) heap fun result after =>
      result = .ok ⟨entry.offset + 8⟩ ∧ after.arena.hi = heap.arena.hi
        ∧ (∃ others : Layout, others.Describes after.arena after.lists
          ∧ others.chains = layout.chains.cutting entry wanted
          ∧ Cut entry wanted (layout.blocks ++ [heap.arena.epilogue])
            (others.blocks ++ [after.arena.epilogue])
          ∧ ∀ other size, Held others.blocks other size ↔
            Held layout.blocks other size ∨ (other = entry.offset ∧ size = wanted))
        ∧ Preserves layout.blocks heap after := by
  have tiling := describes.tiling
  have limit := heap.arena.hi_lt
  have bounds := tiling.bounds member
  have start : (Block.mk entry.offset).payload = .ok (entry.offset + 8) := by
    unfold Entry.stop at bounds
    exact addWord_of_lt entry.offset 8 (by omega)
  unfold serve
  refine (place_returns describes member free aligned real large).bind ?_
  rintro ⟨⟩ placed ⟨others, described, held, listed, cut, alters⟩
  -- The journal gets the size from the header of the block that has been placed.
  obtain ⟨taken, there, -, place, -⟩ :=
    (held entry.offset wanted).mpr (.inr ⟨rfl, rfl⟩)
  have stored := described.tiling.stored taken there
  have inside := described.tiling.bounds there
  have width := Block.size_of_stored taken stored (by
    unfold Entry.stop at inside
    omega)
  rw [place] at width
  refine Returns.step (lift_of_ok start) ?_
  refine Returns.step (readArena_of_ok width) ?_
  refine (record_returns _).bind ?_
  rintro ⟨⟩ noted ⟨config, arena, lists⟩
  rw [← arena] at cut
  rw [← arena, ← lists] at described
  have sound := verify_of_wellFormed noted .afterAllocate ⟨others, described⟩
  refine Returns.step (reading_of_ok sound) ?_
  refine Returns.pure ⟨rfl, ?_, ⟨others, described, listed, cut, held⟩, ?_⟩
  · rw [arena, alters.confined.hi]
  · exact .of_alters ⟨config.trans alters.config, arena ▸ alters.confined⟩

theorem serve_gains {entry : Entry} (size : Nat)
    (describes : layout.Describes heap.arena heap.lists) (member : entry ∈ layout.blocks)
    (free : entry.IsFree) (aligned : wanted % 16 = 0) (real : 16 ≤ wanted)
    (large : wanted ≤ entry.size) :
    Returns (serve size wanted ⟨entry.offset⟩) heap fun result after =>
      result = .ok ⟨entry.offset + 8⟩ ∧ after.arena.hi = heap.arena.hi
        ∧ Gains layout.blocks entry.offset wanted heap after := by
  refine (serve_returns size describes member free aligned real large).mono ?_
  rintro _ after ⟨rfl, same, ⟨others, described, -, -, held⟩, preserves⟩
  exact ⟨rfl, same, ⟨others, described, held⟩, describes.tiling.not_held member free, preserves⟩

/-- A request for some bytes that is not too large is a search and a placement. -/
theorem allocate_eq (wellFormed : WellFormed heap.arena heap.lists) (positive : 0 < size)
    (fits : size ≤ wordLimit - 1 - 24) :
    allocate size heap = (do
      match ← findBlock (blockSize size) with
      | .error error => return .error error
      | .ok block => serve size (blockSize size) block :
        HeapM (Except AllocError Address)) heap := by
  have nonzero : ¬size = 0 := by omega
  unfold allocate
  rw [bind_of_ok (reading_of_ok (verify_of_wellFormed heap _ wellFormed)), if_neg nonzero]
  exact bind_of_ok (lift_of_ok (adjustedSize_of_le fits positive))

theorem allocate_zero (wellFormed : WellFormed heap.arena heap.lists) :
    allocate 0 heap = .ok (.ok .null) heap := by
  unfold allocate
  rw [bind_of_ok (reading_of_ok (verify_of_wellFormed heap _ wellFormed))]
  rfl

theorem allocate_of_large (wellFormed : WellFormed heap.arena heap.lists)
    (large : wordLimit - 1 - 24 < size) :
    allocate size heap = .ok (.error (.tooLarge size)) heap := by
  have nonzero : ¬size = 0 := by omega
  unfold allocate
  rw [bind_of_ok (reading_of_ok (verify_of_wellFormed heap _ wellFormed)), if_neg nonzero]
  exact bind_of_ok (lift_of_ok (adjustedSize_of_lt large))

theorem growth_spec {growth : Nat} (roomy : heap.Roomy) (positive : 0 < size)
    (grows : growth = max (blockSize size) heap.config.chunkSize) :
    growth % 16 = 0 ∧ 16 ≤ growth ∧ blockSize size ≤ growth := by
  have aligned := blockSize_mod size
  have real := blockSize_real positive
  have multiple := roomy.multiple
  omega

section Outcomes

variable (describes : layout.Describes heap.arena heap.lists) (positive : 0 < size)
  (fits : size ≤ wordLimit - 1 - 24)

include describes positive fits

theorem allocate_of_offers (offers : Offers layout.blocks (blockSize size)) :
    Returns (allocate size) heap fun result after => ∃ offset, result = .ok ⟨offset + 8⟩
      ∧ after.arena.hi = heap.arena.hi
      ∧ Gains layout.blocks offset (blockSize size) heap after := by
  unfold Returns
  rw [allocate_eq ⟨layout, describes⟩ positive fits]
  refine (findBlock_of_offers describes offers).bind ?_
  rintro _ _ ⟨rfl, entry, member, free, large, rfl⟩
  have served :=
    serve_gains size describes member free (blockSize_mod size) (blockSize_real positive) large
  refine served.mono ?_
  rintro _ after ⟨rfl, same, gains⟩
  exact ⟨entry.offset, rfl, same, gains⟩

variable {growth : Nat} (refuses : ¬Offers layout.blocks (blockSize size))
  (grows : growth = max (blockSize size) heap.config.chunkSize) (roomy : heap.Roomy)

include refuses grows

theorem allocate_eq_growBlock : allocate size heap = (do
      match ← growBlock (blockSize size) growth with
      | .error error => return .error error
      | .ok block => serve size (blockSize size) block :
        HeapM (Except AllocError Address)) heap := by
  have found := findBlock_eq_growBlock describes refuses
  rw [← grows] at found
  rw [allocate_eq ⟨layout, describes⟩ positive fits]
  simp only [Bind.bind, EStateM.bind, found]

theorem allocate_of_overflow (above : wordLimit ≤ growth + 16) :
    allocate size heap = .error .overflow heap := by
  rw [allocate_eq_growBlock describes positive fits refuses grows]
  exact bind_of_error (growBlock_of_fault (extend_of_overflow above))

include roomy

theorem allocate_of_grown (below : growth + 16 < wordLimit)
    (room : heap.arena.hi + growth ≤ heap.arena.capacity)
    (small : ¬(heap.arena.backing = .buffer ∧ Arena.bufferLimit < heap.arena.hi + growth)) :
    Returns (allocate size) heap fun result after => ∃ offset, result = .ok ⟨offset + 8⟩
      ∧ after.arena.hi = heap.arena.hi + growth
      ∧ Gains layout.blocks offset (blockSize size) heap after := by
  obtain ⟨multiple, real, enough⟩ := growth_spec roomy positive grows
  unfold Returns
  rw [allocate_eq_growBlock describes positive fits refuses grows]
  refine (growBlock_returns describes multiple real enough below room small).bind ?_
  rintro _ middle ⟨others, entry, described, held, member, free, large, rfl, higher, preserves⟩
  have served :=
    serve_gains size described member free (blockSize_mod size) (blockSize_real positive) large
  refine served.mono ?_
  rintro _ after ⟨rfl, same, gains⟩
  exact ⟨entry.offset, rfl, same.trans higher, gains.grown held preserves⟩

theorem allocate_of_exhausted (below : growth + 16 < wordLimit)
    (beyond : ¬heap.arena.hi + growth ≤ heap.arena.capacity) :
    Returns (allocate size) heap fun result after =>
      result = .error
          (.outOfMemory growth (.exhausted growth (heap.arena.capacity - heap.arena.hi)))
        ∧ Unchanged heap after := by
  obtain ⟨multiple, -, -⟩ := growth_spec roomy positive grows
  unfold Returns
  rw [allocate_eq_growBlock describes positive fits refuses grows]
  refine (growBlock_of_exhausted multiple below beyond).bind ?_
  rintro _ after ⟨rfl, same⟩
  exact Returns.pure ⟨rfl, same⟩

theorem allocate_of_oversized (below : growth + 16 < wordLimit)
    (room : heap.arena.hi + growth ≤ heap.arena.capacity)
    (large : heap.arena.backing = .buffer ∧ Arena.bufferLimit < heap.arena.hi + growth) :
    allocate size heap = .error .oversizedBuffer heap := by
  obtain ⟨multiple, -, -⟩ := growth_spec roomy positive grows
  rw [allocate_eq_growBlock describes positive fits refuses grows]
  exact bind_of_error (growBlock_of_fault (extend_of_oversized multiple below room large))

end Outcomes

/-- An allocation is met while the arena has room to grow by a chunk. -/
theorem allocate_of_room (describes : layout.Describes heap.arena heap.lists) (roomy : heap.Roomy)
    (positive : 0 < size)
    (room : heap.arena.hi + max (blockSize size) heap.config.chunkSize ≤ heap.arena.capacity)
    (small : heap.arena.capacity ≤ Arena.bufferLimit) :
    Returns (allocate size) heap fun result after => ∃ offset, result = .ok ⟨offset + 8⟩
      ∧ after.arena.hi ≤ heap.arena.hi + max (blockSize size) heap.config.chunkSize
      ∧ Gains layout.blocks offset (blockSize size) heap after := by
  have bounds := blockSize_bounds size
  have limits : Arena.bufferLimit + 1000 < wordLimit := by decide
  have fits : size ≤ wordLimit - 1 - 24 := by omega
  by_cases offers : Offers layout.blocks (blockSize size)
  · refine (allocate_of_offers describes positive fits offers).mono ?_
    rintro _ after ⟨offset, rfl, same, gains⟩
    exact ⟨offset, rfl, by omega, gains⟩
  · have spacious : ¬(heap.arena.backing = .buffer ∧ Arena.bufferLimit <
        heap.arena.hi + max (blockSize size) heap.config.chunkSize) := by
      rintro ⟨-, large⟩
      omega
    have grown :=
      allocate_of_grown describes positive fits offers rfl roomy (by omega) room spacious
    refine grown.mono ?_
    rintro _ after ⟨offset, rfl, higher, gains⟩
    exact ⟨offset, rfl, Nat.le_of_eq higher, gains⟩

/-- Why an allocation is refused: its block could not be measured, or the arena is full. -/
inductive Refuses (size : Nat) (heap : Heap) : AllocError → Prop
  | tooLarge (large : wordLimit - 1 - 24 < size) : Refuses size heap (.tooLarge size)
  | exhausted (growth : Nat) (beyond : ¬heap.arena.hi + growth ≤ heap.arena.capacity) :
    Refuses size heap
      (.outOfMemory growth (.exhausted growth (heap.arena.capacity - heap.arena.hi)))

theorem Refuses.isRefusal {error : AllocError} (refuses : Refuses size heap error) :
    error.IsRefusal := by
  cases refuses <;> trivial

/-- What an allocation may leave: a heap with one more block, or the heap as it was. -/
inductive Granted (blocks : List Entry) (size : Nat) (before after : Heap) :
    Except AllocError Address → Prop
  | nothing (none : size = 0) (same : Unchanged before after) :
    Granted blocks size before after (.ok .null)
  | refused (error : AllocError) (reason : Refuses size before error)
      (same : Unchanged before after) : Granted blocks size before after (.error error)
  | block (offset : Nat) (positive : 0 < size)
      (gains : Gains blocks offset (blockSize size) before after) :
    Granted blocks size before after (.ok ⟨offset + 8⟩)

/-- Why an allocation may stop: the block would end beyond the last machine word, or a buffer would
become too large. -/
inductive Stops (size : Nat) (heap : Heap) : Fault → Prop
  | overflow (large : wordLimit - 40 < size) : Stops size heap .overflow
  | oversized (kind : heap.arena.backing = .buffer)
      (large : Arena.bufferLimit < heap.arena.hi + max (blockSize size) heap.config.chunkSize) :
    Stops size heap .oversizedBuffer

/-- A size that is small enough to be accepted, but whose block size is so close to the last machine
word that it cannot be rounded up once more, as growth does. -/
def Overlong (size : Nat) : Prop :=
  wordLimit - 40 < size ∧ size ≤ wordLimit - 1 - 24

instance (size : Nat) : Decidable (Overlong size) :=
  inferInstanceAs (Decidable (_ ∧ _))

/-- When an allocation stops: the growth overflows a machine word, or a buffer that may grow by its
capacity becomes too large. -/
inductive Halts (size : Nat) (heap : Heap) : Fault → Prop
  | overflow (overlong : Overlong size) : Halts size heap .overflow
  | oversized (kind : heap.arena.backing = .buffer)
      (room : heap.arena.hi + max (blockSize size) heap.config.chunkSize ≤ heap.arena.capacity)
      (large : Arena.bufferLimit < heap.arena.hi + max (blockSize size) heap.config.chunkSize) :
    Halts size heap .oversizedBuffer

theorem Halts.stops {fault : Fault} (halts : Halts size heap fault) : Stops size heap fault := by
  cases halts with
  | overflow overlong => exact .overflow overlong.1
  | oversized kind _ large => exact .oversized kind large

/-- An allocation is met or refused, or it stops for one of two reasons. -/
theorem allocate_spec (describes : layout.Describes heap.arena heap.lists) (roomy : heap.Roomy)
    (size : Nat) :
    (Returns (allocate size) heap fun result after => Granted layout.blocks size heap after result)
      ∨ ∃ fault, allocate size heap = .error fault heap ∧ Halts size heap fault := by
  have wellFormed : WellFormed heap.arena heap.lists := ⟨layout, describes⟩
  -- The cases are the ways out of an allocation in the order in which it comes to them.
  rcases Nat.eq_zero_or_pos size with rfl | positive
  · exact .inl (.of_eq (allocate_zero wellFormed) (.nothing rfl ⟨rfl, rfl, rfl⟩))
  by_cases fits : size ≤ wordLimit - 1 - 24
  case neg =>
    exact .inl (.of_eq (allocate_of_large wellFormed (Nat.lt_of_not_le fits))
      (.refused _ (.tooLarge (Nat.lt_of_not_le fits)) ⟨rfl, rfl, rfl⟩))
  by_cases offers : Offers layout.blocks (blockSize size)
  case pos =>
    refine .inl ((allocate_of_offers describes positive fits offers).mono ?_)
    rintro _ after ⟨offset, rfl, -, gains⟩
    exact .block offset positive gains
  by_cases below : max (blockSize size) heap.config.chunkSize + 16 < wordLimit
  case neg =>
    have bounds := blockSize_bounds size
    have chunk := roomy.fits
    have limit := heap.arena.capacity_lt
    refine .inr ⟨_, allocate_of_overflow describes positive fits offers rfl (Nat.not_lt.mp below),
      .overflow ⟨?_, fits⟩⟩
    omega
  by_cases room : heap.arena.hi + max (blockSize size) heap.config.chunkSize ≤ heap.arena.capacity
  case neg =>
    have refused := allocate_of_exhausted describes positive fits offers rfl roomy below room
    refine .inl (refused.mono ?_)
    rintro _ after ⟨rfl, same⟩
    exact .refused _ (.exhausted _ room) same
  by_cases large : heap.arena.backing = .buffer
      ∧ Arena.bufferLimit < heap.arena.hi + max (blockSize size) heap.config.chunkSize
  case pos =>
    exact .inr ⟨_, allocate_of_oversized describes positive fits offers rfl roomy below room large,
      .oversized large.1 room large.2⟩
  have grown := allocate_of_grown describes positive fits offers rfl roomy below room large
  refine .inl (grown.mono ?_)
  rintro _ after ⟨offset, rfl, -, gains⟩
  exact .block offset positive gains

end Heap

end BoundaryTag
