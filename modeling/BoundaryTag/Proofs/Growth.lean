import BoundaryTag.Proofs.Placement
import BoundaryTag.Proofs.Search

/-!
# Growth

The arena grows behind the epilogue, so what stood below the break stays as it is: the old epilogue
becomes the header of a new free block, which is joined with a free block before it. A heap without
blocks is described by the empty layout, and a heap is built by growing that one.
-/
namespace BoundaryTag

open Validator (Entry)

namespace Arena

variable {arena after : Arena}

theorem word_congr (same : ∀ position, after.byte position = arena.byte position) (offset : Nat) :
    after.word offset = arena.word offset := by
  unfold word
  exact Bytes.littleEndian_congr _ _ 8 fun index _ => same (offset + index)

theorem grow_returns {size : Nat} (fits : arena.hi + size ≤ arena.capacity)
    (small : ¬(arena.backing = .buffer ∧ bufferLimit < arena.hi + size)) :
    Returns (grow size) arena fun result after =>
      result = .ok arena.hi ∧ after.hi = arena.hi + size ∧ after.capacity = arena.capacity
        ∧ after.backing = arena.backing
        ∧ ∀ position, after.byte position = arena.byte position := by
  exact .of_eq ((dif_pos fits).trans (if_neg small)) ⟨rfl, rfl, rfl, rfl, fun _ => rfl⟩

theorem grow_of_exhausted {size : Nat} (beyond : ¬arena.hi + size ≤ arena.capacity) :
    grow size arena = .ok (.error (.exhausted size (arena.capacity - arena.hi))) arena :=
  dif_neg beyond

theorem grow_of_oversized {size : Nat} (fits : arena.hi + size ≤ arena.capacity)
    (large : arena.backing = .buffer ∧ bufferLimit < arena.hi + size) :
    grow size arena = .error .oversizedBuffer arena :=
  (dif_pos fits).trans (if_pos large)

end Arena

/-- A draft is one of an arena with more room behind it too. -/
theorem Draft.grown {arena after : Arena} {lists : FreeLists} {row shelf : List Entry}
    {chains : Chains} (draft : Draft arena lists row shelf chains) (higher : arena.hi ≤ after.hi)
    (same : ∀ position, after.byte position = arena.byte position) :
    Draft after lists row shelf chains := by
  have words := Arena.word_congr same
  obtain ⟨prologue, ordered, aligned, low, high, stored, shelved, real, listing⟩ := draft
  refine ⟨by rw [words]; exact prologue, ordered, aligned, low, ?_, ?_, shelved, real, ?_⟩
  · intro entry member
    have bounds := high entry member
    omega
  · intro entry member
    obtain ⟨header, footer⟩ := stored entry member
    exact ⟨(words _).trans header, fun free large => (words _).trans (footer free large)⟩
  · refine ⟨listing.heads, fun bucket => ?_, listing.nodup, listing.members⟩
    exact (listing.links bucket).congr (fun _ _ => words _) fun _ _ _ => words _

/-- The free block that starts where an epilogue was. -/
def Validator.Entry.chunk (last : Entry) (size : Nat) : Entry :=
  make last.offset size false last.header.prevAllocated last.header.prevMinimal

def Validator.Entry.ending (last : Entry) (size : Nat) : Entry :=
  make (last.offset + size) 0 true false (size == minBlockSize)

namespace Heap

variable {heap : Heap}

/-- All but the journal stays. -/
structure Unchanged (before after : Heap) : Prop where
  config : after.config = before.config
  arena : after.arena = before.arena
  lists : after.lists = before.lists

/-- What one operation leaves alone when the arena may grow on the way: the configuration, what the
arena is made of, and the payloads of some blocks. -/
structure Preserves (blocks : List Entry) (before after : Heap) : Prop where
  config : after.config = before.config
  capacity : after.arena.capacity = before.arena.capacity
  backing : after.arena.backing = before.arena.backing
  higher : before.arena.hi ≤ after.arena.hi
  payload : ∀ position, ¬Outside blocks position →
    after.arena.byte position = before.arena.byte position

namespace Preserves

variable {blocks others : List Entry} {first second third : Heap}

theorem of_alters (alters : Alters (Outside blocks) first second) :
    Preserves blocks first second :=
  ⟨alters.config, alters.confined.capacity, alters.confined.backing,
    Nat.le_of_eq alters.confined.hi.symm, alters.confined.byte⟩

theorem trans (left : Preserves blocks first second) (right : Preserves others second third)
    (held : ∀ offset size, Held blocks offset size → Held others offset size) :
    Preserves blocks first third where
  config := right.config.trans left.config
  capacity := right.capacity.trans left.capacity
  backing := right.backing.trans left.backing
  higher := left.higher.trans right.higher
  payload position inside := by
    rw [right.payload position fun outside => inside (outside.of_held held)]
    exact left.payload position inside

end Preserves

theorem record_returns (event : Event) :
    Returns (record event) heap fun _ after => Unchanged heap after :=
  .of_eq (record_ok event) ⟨rfl, rfl, rfl⟩

theorem onArena_of_error {Result : Type} {action : ArenaM Result} {fault : Fault} {after : Arena}
    (run : action heap.arena = .error fault after) :
    onArena action heap = .error fault { heap with arena := after } := by
  simp only [onArena, run]

section Extend

variable {size : Nat}

theorem align_of_multiple (multiple : size % 16 = 0) (below : size + 16 < wordLimit) :
    align size = .ok size := by
  have rounded : (size + 15) / 16 * 16 = size := by omega
  rw [align_of_lt size below, rounded]

theorem extend_of_overflow (above : wordLimit ≤ size + 16) :
    extend size heap = .error .overflow heap := by
  unfold extend
  exact bind_of_error (lift_of_error (align_of_le size above))

theorem extend_of_oversized (multiple : size % 16 = 0) (below : size + 16 < wordLimit)
    (fits : heap.arena.hi + size ≤ heap.arena.capacity)
    (large : heap.arena.backing = .buffer ∧ Arena.bufferLimit < heap.arena.hi + size) :
    extend size heap = .error .oversizedBuffer heap := by
  unfold extend
  rw [bind_of_ok (lift_of_ok (align_of_multiple multiple below))]
  exact bind_of_error (onArena_of_error (Arena.grow_of_oversized fits large))

theorem extend_of_exhausted (multiple : size % 16 = 0) (below : size + 16 < wordLimit)
    (beyond : ¬heap.arena.hi + size ≤ heap.arena.capacity) :
    Returns (extend size) heap fun result after =>
      result = .error (.outOfMemory size (.exhausted size (heap.arena.capacity - heap.arena.hi)))
        ∧ Unchanged heap after := by
  unfold extend
  refine Returns.step (lift_of_ok (align_of_multiple multiple below)) ?_
  refine Returns.step (onArena_of_ok (Arena.grow_of_exhausted beyond)) ?_
  refine Returns.step (record_ok _) ?_
  exact Returns.pure ⟨rfl, rfl, rfl, rfl⟩

/-- A growth that succeeds had room. -/
theorem room_of_extend {after : Heap} {extended : Block} (multiple : size % 16 = 0)
    (grown : extend size heap = .ok (.ok extended) after) :
    size + 16 < wordLimit ∧ heap.arena.hi + size ≤ heap.arena.capacity
      ∧ ¬(heap.arena.backing = .buffer ∧ Arena.bufferLimit < heap.arena.hi + size) := by
  have below : size + 16 < wordLimit := by
    by_contra above
    cases grown.symm.trans (extend_of_overflow (Nat.not_lt.mp above))
  have fits : heap.arena.hi + size ≤ heap.arena.capacity := by
    by_contra beyond
    cases ((extend_of_exhausted multiple below beyond).of_run grown).1
  refine ⟨below, fits, fun large => ?_⟩
  cases grown.symm.trans (extend_of_oversized multiple below fits large)

/-- The new bytes become a free block that starts where the epilogue was, with a new epilogue at
its end. -/
theorem chunk_returns {blocks : List Entry} {last : Entry} {chains : Chains}
    (draft : Draft heap.arena heap.lists (blocks ++ [last]) (blocks ++ [last]) chains)
    (closed : ¬last.IsFree) (multiple : size % 16 = 0) (real : 16 ≤ size)
    (top : last.offset + size + 8 = heap.arena.hi) :
    Returns (onArena (Block.writeFree ⟨last.offset⟩ size last.header.prevAllocated
        last.header.prevMinimal)) heap fun _ middle =>
      (Block.mk last.offset).after size = .ok ⟨last.offset + size⟩ ∧
      Returns (onArena (Block.writeAllocated ⟨last.offset + size⟩ 0 false (size == minBlockSize)))
        middle fun _ after =>
          Draft after.arena after.lists (blocks ++ [last.chunk size, last.ending size])
              (blocks ++ [last.ending size]) chains
            ∧ Alters (Outside blocks) heap after := by
  have ahead := (List.pairwise_append.mp draft.ordered).2.2
  have limit := heap.arena.hi_lt
  have low := draft.low last (by simp)
  have aligned := draft.aligned last (by simp)
  have width : (last.chunk size).size = size := Entry.size_make _ _ _ _ _ multiple
  have empty : (last.ending size).size = 0 := rfl
  have place : (last.ending size).offset = last.offset + size := rfl
  have start : (last.chunk size).offset = last.offset := rfl
  have stop : (last.chunk size).stop = last.offset + size := by rw [Entry.stop, width, start]
  have free : (last.chunk size).IsFree := rfl
  have still : ¬(last.ending size).IsFree := Entry.not_free_of_allocated rfl
  have first : Fits heap.arena (blocks ++ [last]) blocks (last.chunk size) [] := by
    refine ⟨by simp, fun other here => ahead other here last (by simp), by simp, aligned, low, ?_⟩
    rw [start, stop]
    omega
  -- The epilogue was not free, so it is not missed by the lists.
  have freed := write_returns (last.chunk size) draft first
    (Block.writeFree_returns (last.chunk size) free rfl first.high.1 first.high.2 (by omega))
    (List.sublist_append_left blocks _)
    (fun _ free => (mem_iff_of_last_taken closed free).symm)
    (fun _ listed free => (mem_iff_of_taken closed free).mp listed)
  rw [width] at freed
  refine freed.mono ?_
  rintro ⟨⟩ middle ⟨halfway, freed, -⟩
  refine ⟨Block.after_of_lt (by omega), ?_⟩
  -- The new epilogue goes behind the new block, where nothing stands yet.
  have second : Fits middle.arena (blocks ++ [last.chunk size]) (blocks ++ [last.chunk size])
      (last.ending size) [] := by
    refine ⟨by simp, ?_, by simp, by omega, by omega, ?_⟩
    · intro other here
      unfold Entry.Ahead
      rcases List.mem_append.mp here with here | here
      · have before := ahead other here last (by simp)
        unfold Entry.Ahead at before
        omega
      · rw [List.mem_singleton.mp here]
        omega
    · rw [Entry.stop, empty, place, freed.confined.hi]
      omega
  have shelved : (blocks ++ [last.ending size]).Sublist
      (blocks ++ [last.chunk size] ++ [last.ending size]) := by simp
  have ended := write_returns (last.ending size) halfway second
    (Block.writeAllocated_returns (last.ending size) rfl rfl second.high.1 (by
      rw [empty]
      decide))
    shelved (fun _ free => mem_iff_of_last_taken still free) (fun _ listed _ => by simp [listed])
  refine ended.mono ?_
  rintro ⟨⟩ after ⟨finished, ended, -⟩
  refine ⟨by simpa using finished, ?_⟩
  refine (freed.mono fun _ outside => ?_).trans (ended.mono fun _ outside => ?_)
  · exact outside.subset (List.subset_append_left _ _)
  · exact outside.subset fun other here => by simp [here]

/-- Growth adds one free block behind all others, or widens the last one if that is free. -/
theorem extend_returns {layout : Layout} (describes : layout.Describes heap.arena heap.lists)
    (multiple : size % 16 = 0) (real : 16 ≤ size) (below : size + 16 < wordLimit)
    (fits : heap.arena.hi + size ≤ heap.arena.capacity)
    (small : ¬(heap.arena.backing = .buffer ∧ Arena.bufferLimit < heap.arena.hi + size)) :
    Returns (extend size) heap fun result after =>
      ∃ (others : Layout) (joined : Entry), others.Describes after.arena after.lists
        ∧ (∀ offset width, Held others.blocks offset width ↔ Held layout.blocks offset width)
        ∧ others.chains = layout.chains.joining layout.blocks (heap.arena.hi - 8) size []
        ∧ joined ∈ others.blocks ∧ joined.IsFree ∧ size ≤ joined.size
        ∧ joined.offset = joinedStart layout.blocks (heap.arena.hi - 8)
        ∧ (∀ entry ∈ others.blocks, entry.IsFree → entry ≠ joined → entry ∈ layout.blocks)
        ∧ result = .ok ⟨joined.offset⟩ ∧ after.arena.hi = heap.arena.hi + size
        ∧ Preserves layout.blocks heap after := by
  have tiling := describes.tiling
  have room := tiling.room
  obtain ⟨-, closed⟩ := Entry.of_sentinel tiling.epilogue
  have start : subWord heap.arena.hi 8 = .ok (heap.arena.hi - 8) := subWord_of_le _ _ (by omega)
  unfold extend
  refine Returns.step (lift_of_ok (align_of_multiple multiple below)) ?_
  refine (onArena_returns (Arena.grow_returns fits small)).bind ?_
  rintro _ grown ⟨only, rfl, higher, capacity, backing, same⟩
  have config : grown.config = heap.config := by rw [only]
  have lists : grown.lists = heap.lists := by rw [only]
  -- The old epilogue is the only block of the row that is going to be overwritten.
  have whole := (Draft.of_describes describes).grown (show _ ≤ grown.arena.hi by omega) same
  rw [← lists] at whole
  have epilogue := Block.header_of_stored heap.arena.epilogue (whole.stored _ (by simp))
    (whole.high _ (by simp)).1
  have top : heap.arena.epilogue.offset + size + 8 = grown.arena.hi := by
    change heap.arena.hi - 8 + size + 8 = grown.arena.hi
    omega
  refine Returns.step (lift_of_ok start) ?_
  refine Returns.step (readArena_of_ok epilogue) ?_
  refine (chunk_returns whole closed multiple real top).bind ?_
  rintro ⟨⟩ middle ⟨behind, ending⟩
  refine Returns.step (lift_of_ok behind) ?_
  refine ending.bind ?_
  rintro ⟨⟩ after ⟨row, first⟩
  refine Returns.step (readArena_of_ok rfl) ?_
  refine (record_returns _).bind ?_
  rintro ⟨⟩ noted ⟨kept, arena, lists⟩
  rw [← arena, ← lists] at row
  have noted_first : Alters (Outside layout.blocks) grown noted :=
    ⟨kept.trans first.config, arena ▸ first.confined⟩
  have stop : (heap.arena.epilogue.chunk size).stop = (heap.arena.epilogue.ending size).offset :=
    Entry.stop_make _ _ _ _ _ multiple
  have width : (heap.arena.epilogue.chunk size).size = size := Entry.size_make _ _ _ _ _ multiple
  have free : (heap.arena.epilogue.chunk size).IsFree := rfl
  -- What is left is to join the new block, which is on no list, with the block before it.
  have apart : Draft noted.arena noted.lists
      (layout.blocks ++ heap.arena.epilogue.chunk size :: ([] ++ [heap.arena.epilogue.ending size]))
      (layout.blocks ++ ([] ++ [heap.arena.epilogue.ending size])) layout.chains := row
  have settles := coalesce_settles apart tiling.chain (List.isChain_singleton _) free rfl rfl rfl
    (by simpa using stop) rfl
    (top.trans noted_first.confined.hi.symm) (by simpa using tiling.reserved)
  refine settles.bind ?_
  rintro block final
    ⟨others, joined, described, held, listed, member, free, rfl, place, extent, row, second⟩
  rw [List.append_nil] at held second
  rw [width] at listed extent
  have wide : size ≤ joined.size := by
    rw [extent, joinedSize]
    omega
  have alters := noted_first.trans second.toAlters
  refine Returns.pure
    ⟨others, joined, described, held, listed, member, free, wide, place, ?_, rfl, ?_, ?_⟩
  · intro entry there isFree different
    have apart : entry.offset ≠ joinedStart layout.blocks (heap.arena.hi - 8) := fun same =>
      different (described.tiling.eq_of_offset there member (same.trans place.symm))
    rcases row.mem_of_free (List.mem_append_left _ there) isFree apart with here | last
    · exact here
    · -- Behind the new block there is nothing but the new epilogue.
      cases List.mem_singleton.mp last
      exact absurd isFree (Entry.not_free_of_allocated rfl)
  · rw [alters.confined.hi, higher]
  · have preserves := Preserves.of_alters alters
    exact ⟨preserves.config.trans config, preserves.capacity.trans capacity,
      preserves.backing.trans backing, by have := preserves.higher; omega,
      fun position inside => (preserves.payload position inside).trans (same position)⟩

end Extend

end Heap

end BoundaryTag
