import BoundaryTag.Heap.Statistics
import BoundaryTag.Proofs.Allocation

/-!
# What a walk over a heap finds

In a described heap the walk from the first block finds the blocks of the layout, in order and as
they are stored, and the walk along a bucket finds the members of its chain. So what is counted over
the walk is known from the layout, and the largest free block that the statistics report tells
whether a request can be met without growing.
-/
namespace BoundaryTag

open Validator (Entry)

variable {arena : Arena} {lists : FreeLists} {layout : Layout}

/-- The block that a word links to. -/
def Block.ofLink (word : Nat) : Option Block :=
  if word = 0 then none else some ⟨word⟩

theorem Block.linkAt_of_le {offset : Nat} (inside : offset + 8 ≤ arena.hi) :
    linkAt offset arena = .ok (ofLink (arena.word offset)) := by
  rw [linkAt, except_bind_of_ok (Arena.readWord_of_le arena offset inside)]
  rfl

namespace Validator.Entry

/-- What stands behind the header of a block. -/
def kind (entry : Entry) (arena : Arena) : BlockKind :=
  if entry.header.allocated then .allocated (entry.size - 8)
  else if 32 ≤ entry.size then
    .free (Block.ofLink (arena.word (entry.offset + 8)))
      (Block.ofLink (arena.word (entry.offset + 16))) (some entry.header)
  else .free (Block.ofLink (arena.word (entry.offset + 8))) none none

def view (entry : Entry) (arena : Arena) : BlockView where
  block := ⟨entry.offset⟩
  size := entry.size
  prevAllocated := entry.header.prevAllocated
  prevMinimal := entry.header.prevMinimal
  kind := entry.kind arena

theorem isFree_view (entry : Entry) (arena : Arena) :
    (entry.view arena).isFree = true ↔ entry.IsFree := by
  unfold view kind BlockView.isFree IsFree
  cases entry.header.allocated with
  | true => simp
  | false =>
    by_cases large : 32 ≤ entry.size
    · simp [large]
    · simp [large]

/-- The view of a block depends on its header and, if it is free, on its links. -/
theorem view_congr {after : Arena} (entry : Entry)
    (links : entry.IsFree → after.word (entry.offset + 8) = arena.word (entry.offset + 8)
      ∧ (32 ≤ entry.size → after.word (entry.offset + 16) = arena.word (entry.offset + 16))) :
    entry.view after = entry.view arena := by
  have same : entry.kind after = entry.kind arena := by
    unfold kind
    split
    next => rfl
    next taken =>
      obtain ⟨next, back⟩ := links (eq_false_of_ne_true taken)
      split
      next large => rw [next, back large]
      next => rw [next]
  rw [view, same, view]

theorem read_of_stored (entry : Entry) (stored : entry.Stored arena) (real : 16 ≤ entry.size)
    (inside : entry.stop ≤ arena.hi) :
    BlockView.read arena ⟨entry.offset⟩ = .ok (entry.view arena) := by
  have limit := arena.hi_lt
  unfold stop at inside
  have header := Block.header_of_stored entry stored (by omega)
  have next : (Block.mk entry.offset).nextFree arena =
      .ok (Block.ofLink (arena.word (entry.offset + 8))) := by
    rw [Block.nextFree, except_bind_of_ok (Block.nextSlot_of_lt (by omega))]
    exact Block.linkAt_of_le (by omega)
  rw [BlockView.read, except_bind_of_ok header]
  -- A block is read in one of three ways, by what stands behind its header.
  cases allocated : entry.header.allocated with
  | true =>
    have kind : entry.kind arena = .allocated (entry.size - 8) := if_pos allocated
    rw [view, kind]
    rfl
  | false =>
    have taken : ¬entry.header.allocated = true := by simp [allocated]
    by_cases large : 32 ≤ entry.size
    · have slot : Block.prevSlot ⟨entry.offset⟩ = .ok (entry.offset + 16) :=
        Block.prevSlot_of_lt (by omega)
      have back : Block.linkAt (entry.offset + 16) arena =
          .ok (Block.ofLink (arena.word (entry.offset + 16))) := Block.linkAt_of_le (by omega)
      have place : (Block.mk entry.offset).footer entry.header.size = .ok (entry.stop - 8) :=
        Block.footer_of_lt (by change entry.offset + entry.size < _; omega)
          (by change 8 ≤ entry.offset + entry.size; omega)
      have footer : arena.readWord (entry.stop - 8) = .ok entry.header.toWord := by
        rw [← stored.footer allocated large]
        exact Arena.readWord_of_le _ _ (by unfold stop; omega)
      have kind : entry.kind arena = .free (Block.ofLink (arena.word (entry.offset + 8)))
          (Block.ofLink (arena.word (entry.offset + 16))) (some entry.header) := by
        rw [Entry.kind, if_neg taken, if_pos large]
      have tagged : linkedBlockSize ≤ entry.header.size := large
      rw [view, kind]
      dsimp only
      rw [if_neg Bool.false_ne_true, if_pos tagged]
      simp only [next, slot, back, place, footer, bind, Except.bind, pure, Except.pure,
        Header.ofWord_toWord]
      rfl
    · have kind : entry.kind arena =
          .free (Block.ofLink (arena.word (entry.offset + 8))) none none := by
        rw [Entry.kind, if_neg taken, if_neg large]
      have untagged : ¬linkedBlockSize ≤ entry.header.size := large
      rw [view, kind]
      dsimp only
      rw [if_neg Bool.false_ne_true, if_neg untagged]
      simp only [next, bind, Except.bind, pure, Except.pure]
      rfl

end Validator.Entry

theorem blocksFrom_of_sentinel (last : Entry) (stored : arena.word last.offset = last.header.toWord)
    (inside : last.offset + 8 ≤ arena.hi) (empty : last.size = 0) :
    arena.blocksFrom ⟨last.offset⟩ = .ok [] := by
  have word := Arena.readWord?_of_le arena last.offset inside
  have size : (Header.ofWord (arena.word last.offset)).size = 0 := by
    rw [stored, Header.ofWord_toWord]
    exact empty
  rw [Arena.blocksFrom]
  split
  next none => cases word.symm.trans none
  next found some =>
    cases word.symm.trans some
    exact dif_pos size

theorem blocksFrom_of_stored (entry : Entry) (stored : entry.Stored arena)
    (real : 16 ≤ entry.size) (inside : entry.stop ≤ arena.hi) :
    arena.blocksFrom ⟨entry.offset⟩ = do
      let rest ← arena.blocksFrom ⟨entry.stop⟩
      return entry.view arena :: rest := by
  have high : entry.offset + 8 ≤ arena.hi := by
    unfold Entry.stop at inside
    omega
  have word := Arena.readWord?_of_le arena entry.offset high
  have size : (Header.ofWord (arena.word entry.offset)).size = entry.size := by
    rw [stored.header, Header.ofWord_toWord]
    rfl
  have read := entry.read_of_stored stored real inside
  rw [Arena.blocksFrom]
  split
  next none => cases word.symm.trans none
  next found some =>
    cases word.symm.trans some
    dsimp only
    rw [dif_neg (by omega), except_bind_of_ok read, size]
    rfl

/-- The walk from the end of one block answers the blocks that continue the chain. The induction is
on these blocks. -/
theorem blocksFrom_of_chain (tiling : Tiling arena layout.blocks) (rest : List Entry)
    (first : Entry) (chain : (first :: rest ++ [arena.epilogue]).IsChain Adjoins)
    (present : rest ⊆ layout.blocks) :
    arena.blocksFrom ⟨first.stop⟩ = .ok (rest.map (·.view arena)) := by
  induction rest generalizing first with
  | nil =>
    have adjoins := List.isChain_pair.mp chain
    have room := tiling.room
    have inside : arena.epilogue.offset + 8 ≤ arena.hi := by
      change arena.hi - 8 + 8 ≤ arena.hi
      omega
    rw [← adjoins.place]
    refine blocksFrom_of_sentinel _ ?_ inside (Entry.of_sentinel tiling.epilogue).1
    rw [Arena.epilogue, Header.toWord_ofWord]
  | cons entry rest ih =>
    obtain ⟨adjoins, chain⟩ := List.isChain_cons_cons.mp chain
    have member : entry ∈ layout.blocks := present List.mem_cons_self
    have bounds := tiling.bounds member
    rw [← adjoins.place, blocksFrom_of_stored entry (tiling.stored entry member)
      (tiling.real entry member) (by omega),
      ih entry chain fun other later => present (List.mem_cons_of_mem _ later)]
    rfl

/-- The walk along a bucket answers the members of its chain, as many as are asked for. The
induction is on those still to come. -/
theorem FreeLists.chain_of_place {chains : Chains} {bucket : Bucket}
    (listed : Listed arena lists chains) (passed coming : List Nat) (limit : Nat)
    (place : chains bucket = passed ++ coming) :
    chain arena limit (coming.head?.map Block.mk) = .ok ((coming.take limit).map Block.mk) := by
  induction coming generalizing passed limit with
  | nil => cases limit <;> rfl
  | cons offset rest ih =>
    cases limit with
    | zero => rfl
    | succ less =>
      have next := nextFree_of_place listed place
      have tail := ih (passed ++ [offset]) less (by simp [place])
      simp only [List.head?_cons, Option.map_some, chain, except_bind_of_ok next, tail]
      rfl

theorem Listed.firstMembers {chains : Chains} (listed : Listed arena lists chains) (limit : Nat)
    (bucket : Bucket) :
    lists.firstMembers arena limit bucket = .ok (((chains bucket).take limit).map Block.mk) := by
  rw [FreeLists.firstMembers, listed.heads]
  exact FreeLists.chain_of_place listed [] (chains bucket) limit rfl

/-- A bucket has the members that its chain says, head first. -/
theorem Listed.members {chains : Chains} (listed : Listed arena lists chains) (bucket : Bucket) :
    lists.members arena bucket = .ok ((chains bucket).map Block.mk) := by
  have short := listed.length_le bucket
  have walk := listed.firstMembers (arena.hi + 1) bucket
  rw [List.take_of_length_le (by omega)] at walk
  rw [FreeLists.members, except_bind_of_ok walk,
    except_bind_of_ok (ensure_of_true _ (by simpa using short))]
  rfl

theorem Layout.Describes.members (describes : layout.Describes arena lists) (bucket : Bucket) :
    lists.members arena bucket = .ok ((layout.chains bucket).map Block.mk) :=
  describes.listed.members bucket

namespace Heap

variable {heap : Heap}

theorem blocks_of_describes (describes : layout.Describes heap.arena heap.lists) :
    heap.blocks = .ok (layout.blocks.map (·.view heap.arena)) :=
  blocksFrom_of_chain describes.tiling layout.blocks Entry.prologue describes.tiling.chain
    (List.Subset.refl _)

theorem statistics_of_describes (describes : layout.Describes heap.arena heap.lists) :
    heap.statistics =
      .ok (Statistics.ofBlocks heap.arena.hi (layout.blocks.map (·.view heap.arena))) := by
  rw [statistics, blocks_of_describes describes]
  rfl

end Heap

/-- The maximum of some sizes is at least as large as a positive number if one of the sizes is. -/
theorem le_foldr_max_iff (views : List BlockView) (wanted : Nat) (positive : 0 < wanted) :
    wanted ≤ views.foldr (fun view rest => max view.size rest) 0 ↔
      ∃ view ∈ views, wanted ≤ view.size := by
  induction views with
  | nil =>
    have zero : ¬wanted ≤ 0 := Nat.not_le_of_lt positive
    simp [zero]
  | cons view rest ih =>
    simp only [List.foldr_cons, List.mem_cons, exists_eq_or_imp, ← ih]
    omega

/-- The largest free block is at least as large as a positive number if some free block is. -/
theorem le_largestFree_iff (hi : Nat) (views : List BlockView) (wanted : Nat)
    (positive : 0 < wanted) :
    wanted ≤ (Statistics.ofBlocks hi views).largestFree ↔
      ∃ view ∈ views, view.isFree = true ∧ wanted ≤ view.size := by
  refine (le_foldr_max_iff _ wanted positive).trans ?_
  simp only [List.mem_filter, and_assoc]

theorem exists_view_iff_offers (blocks : List Entry) (arena : Arena) (wanted : Nat) :
    (∃ view ∈ blocks.map (·.view arena), view.isFree = true ∧ wanted ≤ view.size) ↔
      Offers blocks wanted := by
  constructor
  · rintro ⟨view, member, free, large⟩
    obtain ⟨entry, there, rfl⟩ := List.mem_map.mp member
    exact ⟨entry, there, (entry.isFree_view arena).mp free, large⟩
  · rintro ⟨entry, there, free, large⟩
    exact ⟨entry.view arena, List.mem_map_of_mem there, (entry.isFree_view arena).mpr free, large⟩

end BoundaryTag
