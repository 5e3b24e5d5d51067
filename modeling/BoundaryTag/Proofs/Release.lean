import BoundaryTag.Proofs.Coalescing
import BoundaryTag.Proofs.Validation

/-!
# Release

Coalescing leaves a heap that a layout describes, with the same allocated blocks. So a release gives
back one block, and no byte of any other payload changes.
-/
namespace BoundaryTag

open Validator (Entry)

/-- A position is in no payload of some blocks if it is in none of the blocks they hold. -/
theorem Outside.of_held {entries fewer : List Entry} {position : Nat}
    (outside : Outside entries position)
    (held : ∀ offset size, Held fewer offset size → Held entries offset size) :
    Outside fewer position := by
  rintro entry member ⟨allocated, inside⟩
  obtain ⟨other, there, busy, start, width⟩ :=
    held entry.offset entry.size ⟨entry, member, allocated, rfl, rfl⟩
  refine outside other there ⟨busy, ?_⟩
  rw [Entry.stop, start, width]
  exact inside

theorem Address.eq_null {address : Address} (null : address.isNull = true) : address = .null :=
  congrArg Address.mk (beq_iff_eq.mp null)

theorem Address.isNull_payload (offset : Nat) : (⟨offset + 8⟩ : Address).isNull = false := by
  simp [isNull]

/-- The free block that an allocated block becomes. -/
def Validator.Entry.freeing (entry : Entry) : Entry :=
  ⟨entry.offset, { entry.header with allocated := false }⟩

/-- An operation ends by recording something in the block behind those that it changed. When these
fit into the chain, the draft is a layout. -/
theorem Draft.settles {arena : Arena} {lists : FreeLists} {chains : Chains}
    {front aft right : List Entry} {final next : Entry} {prevAllocated prevMinimal : Bool}
    (draft : Draft arena lists (front ++ next.recording prevAllocated prevMinimal :: right)
      (front ++ next.recording prevAllocated prevMinimal :: right) chains)
    (split : aft ++ [final] = next :: right)
    (chain : (Entry.prologue :: front ++
      next.recording prevAllocated prevMinimal :: right).IsChain Adjoins)
    (sentinel : final.header.isSentinel = true) (top : final.offset + 8 = arena.hi)
    (frontClean : ∀ entry ∈ front, entry.header.reserved = false)
    (aftClean : ∀ entry ∈ aft, entry.header.reserved = false) :
    ∃ layout : Layout, layout.Describes arena lists ∧ layout.chains = chains
      ∧ layout.blocks ++ [arena.epilogue] =
        front ++ next.recording prevAllocated prevMinimal :: right
      ∧ front ⊆ layout.blocks
      ∧ ∀ offset size, Held layout.blocks offset size ↔ Held (front ++ aft) offset size := by
  obtain ⟨others, last, rows, place, same, held, clean⟩ :=
    exists_recorded prevAllocated prevMinimal split
  -- The epilogue goes back to where it belongs, behind the blocks.
  rw [rows] at draft chain
  rw [← List.append_assoc] at draft chain
  have reserved (entry : Entry) (member : entry ∈ front ++ others) :
      entry.header.reserved = false := by
    rcases List.mem_append.mp member with here | there
    · exact frontClean entry here
    · exact clean aftClean entry there
  obtain ⟨rfl, describes⟩ :=
    draft.describes chain (same.trans sentinel) (by omega) reserved
  refine ⟨_, describes, rfl, ?_, List.subset_append_left _ _, fun offset size => ?_⟩
  · rw [rows, List.append_assoc]
  · rw [held_append, held_append, held]

namespace Heap

variable {heap : Heap}

theorem coalesce_settles {fore aft : List Entry} {entry block final : Entry} {chains : Chains}
    (draft : Draft heap.arena heap.lists (fore ++ block :: (aft ++ [final]))
      (fore ++ (aft ++ [final])) chains)
    (front : (Entry.prologue :: fore ++ [entry]).IsChain Adjoins)
    (back : (aft ++ [final]).IsChain Adjoins) (free : block.IsFree)
    (place : block.offset = entry.offset)
    (prevAllocated : block.header.prevAllocated = entry.header.prevAllocated)
    (prevMinimal : block.header.prevMinimal = entry.header.prevMinimal)
    (meets : ∀ first ∈ (aft ++ [final]).head?, block.stop = first.offset)
    (sentinel : final.header.isSentinel = true) (top : final.offset + 8 = heap.arena.hi)
    (clean : ∀ entry ∈ fore ++ aft, entry.header.reserved = false) :
    Returns (coalesce ⟨block.offset⟩) heap fun start after =>
      ∃ (layout : Layout) (joined : Entry), layout.Describes after.arena after.lists
        ∧ (∀ offset size, Held layout.blocks offset size ↔ Held (fore ++ aft) offset size)
        ∧ layout.chains = chains.joining fore block.offset block.size aft
        ∧ joined ∈ layout.blocks ∧ joined.IsFree ∧ start = ⟨joined.offset⟩
        ∧ joined.offset = joinedStart fore block.offset
        ∧ joined.size = joinedSize fore block.size aft
        ∧ Joined fore block (aft ++ [final]) (layout.blocks ++ [after.arena.epilogue])
        ∧ Frees (Outside (fore ++ aft)) heap after := by
  obtain ⟨-, closed⟩ := Entry.of_sentinel sentinel
  obtain ⟨left, before, behind, tail, next, right, foreEq, aftEq, last, first, split, joint⟩ :=
    exists_joint front back closed free place prevAllocated prevMinimal meets
  obtain ⟨start, size⟩ := joined_of_joint joint last first
  have chainsEq := Chains.joining_of_joint joint last first chains
  have whole : aft ++ [final] = behind.toList ++ next :: right := by
    rw [aftEq, List.append_assoc, split]
  have becomes {row : List Entry} (same : row = left ++ merged before block next ::
      next.recording false ((merged before block next).size == 16) :: right) :
      Joined fore block (aft ++ [final]) row :=
    ⟨left, before, behind, next, right, foreEq, last, whole,
      first.trans (firstFree_concat closed).symm, joint, same⟩
  clear last first whole
  subst foreEq aftEq
  rw [List.append_assoc behind.toList, split] at draft back
  have chain := chain_of_joint joint front back place prevAllocated prevMinimal
  have none (offset size : Nat) : ¬Held before.toList offset size
      ∧ ¬Held behind.toList offset size ∧ ¬Held [merged before block next] offset size := by
    refine ⟨not_held_of_free ?_ _ _, not_held_of_free ?_ _ _, not_held_of_free ?_ _ _⟩
    · exact fun entry member => (joint.before_free entry (Option.mem_toList.mp member)).1
    · exact fun entry member => (joint.behind_free entry (Option.mem_toList.mp member)).1
    · exact List.forall_mem_singleton.mpr rfl
  -- Neither the parts nor the joined block are allocated, so the same blocks are held.
  refine (coalesce_returns joint draft).mono ?_
  rintro _ after ⟨rfl, _, edited, rfl, frees⟩
  rw [List.append_cons] at edited chain
  have top : final.offset + 8 = after.arena.hi := top.trans frees.confined.hi.symm
  obtain ⟨layout, describes, lists, rows, subset, held⟩ :=
    edited.settles split chain sentinel top (by
      intro other there
      rcases List.mem_append.mp there with here | here
      · exact clean other (by simp [here])
      · rw [List.mem_singleton.mp here]
        rfl)
    fun other there => clean other (by simp [there])
  refine ⟨layout, merged before block next, describes, ?_, lists.trans chainsEq.symm,
    subset (by simp), rfl, rfl, start, size,
    becomes (by rw [rows, List.append_assoc, List.singleton_append]), ?_⟩
  · intro offset width
    obtain ⟨first, second, third⟩ := none offset width
    rw [held]
    simp only [held_append, first, second, third, or_false, false_or]
  · rw [← split] at frees
    refine frees.mono fun position outside => outside.of_held fun offset width => ?_
    obtain ⟨first, second, -⟩ := none offset width
    simp only [held_append, first, second, or_false, false_or]
    exact fun holds => holds.imp_right .inl

/-- A release gives back the block of the payload and no other one. -/
theorem release_returns {layout : Layout} {entry : Entry}
    {fore aft : List Entry} (describes : layout.Describes heap.arena heap.lists)
    (split : layout.blocks = fore ++ entry :: aft) (allocated : entry.header.allocated = true) :
    Returns (release ⟨entry.offset + 8⟩) heap fun _ after =>
      ∃ others : Layout, others.Describes after.arena after.lists
        ∧ (∀ offset size, Held others.blocks offset size ↔
          Held layout.blocks offset size ∧ offset ≠ entry.offset)
        ∧ others.chains = layout.chains.joining fore entry.offset entry.size aft
        ∧ Joined fore entry.freeing (aft ++ [heap.arena.epilogue])
          (others.blocks ++ [after.arena.epilogue])
        ∧ Frees (Outside others.blocks) heap after ∧ after.arena.Idle entry.offset := by
  obtain ⟨blocks, chains⟩ := layout
  obtain rfl : blocks = fore ++ entry :: aft := split
  have member : entry ∈ fore ++ entry :: aft := by simp
  have tiling := describes.tiling
  have whole := Draft.of_describes describes
  simp only [List.append_assoc, List.cons_append] at whole
  obtain ⟨front, back⟩ := tiling.split
  have high := whole.high entry (by simp)
  have low := whole.low entry (by simp)
  have below := heap.arena.hi_lt
  have taken : ¬entry.IsFree := Entry.not_free_of_allocated allocated
  have wellFormed : WellFormed heap.arena heap.lists := ⟨_, describes⟩
  have free : entry.freeing.IsFree := rfl
  have size : entry.freeing.size = entry.size := rfl
  have fits : Fits heap.arena _ fore entry.freeing _ := whole.fits rfl size
  have writes := Block.writeFree_returns entry.freeing free (tiling.reserved entry member)
    fits.high.1 fits.high.2 (by
      have stop := fits.high.2
      unfold Entry.stop at stop
      omega)
  have shelved : (fore ++ (aft ++ [heap.arena.epilogue])).Sublist
      (fore ++ entry.freeing :: (aft ++ [heap.arena.epilogue])) := by simp
  have edits := write_returns entry.freeing whole fits writes shelved
    (fun _ free => (mem_iff_of_taken taken free).symm)
    (fun _ listed free => (mem_iff_of_taken taken free).mp listed)
  have header := Block.header_of_stored entry (whole.stored entry (by simp)) high.1
  unfold release
  rw [Address.isNull_payload]
  refine Returns.step (reading_of_ok (verify_of_wellFormed heap _ wellFormed)) ?_
  refine Returns.step (lift_of_ok (Block.ofPayload_add _)) ?_
  refine Returns.step (readArena_of_ok header) ?_
  refine Returns.step (lift_of_ok (ensure_of_true _ allocated)) ?_
  refine edits.bind ?_
  rintro ⟨⟩ first ⟨edited, -, calm⟩
  have written := calm (.inl free)
  have idle := (edited.stored entry.freeing (by simp)).idle_iff.mpr free
  have top : heap.arena.epilogue.offset + 8 = first.arena.hi := by
    have room := tiling.room
    rw [written.confined.hi]
    change heap.arena.hi - 8 + 8 = heap.arena.hi
    omega
  -- The freed block stands where the old one stood, with the same flags.
  have older : (fore ++ aft).Sublist (fore ++ entry :: aft) := by simp
  have settles := coalesce_settles edited front back.tail free rfl rfl rfl
    (fun next isFirst => (back.rel_head? isFirst).place.symm) tiling.epilogue top
    fun other there => tiling.reserved other (older.subset there)
  refine settles.bind ?_
  rintro start second ⟨others, joined, described, held, lists, -, -, rfl, -, -, becomes, altered⟩
  refine Returns.step (record_ok _) ?_
  have sound : WellFormed second.arena second.lists := ⟨others, described⟩
  refine Returns.of_eq (reading_of_ok (verify_of_wellFormed _ _ sound)) ?_
  refine ⟨others, described, ?_, lists, becomes, ?_, altered.idle _ fits.aligned idle⟩
  · intro offset width
    rw [held]
    exact tiling.held_without offset width
  · have before := written.mono fun position outside => outside.of_held fun offset width =>
      fun (holds : Held others.blocks offset width) => ?_
    · have after := altered.mono fun position outside => outside.of_held fun offset width =>
        (held offset width).mp
      have whole := before.trans after
      exact ⟨⟨whole.config, whole.confined⟩, whole.idle⟩
    · obtain ⟨other, there, holds⟩ := (held offset width).mp holds
      refine ⟨other, ?_, holds⟩
      rcases List.mem_append.mp there with here | here <;> simp [here]

end Heap

end BoundaryTag
