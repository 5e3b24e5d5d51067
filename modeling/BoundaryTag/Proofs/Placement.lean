import BoundaryTag.Proofs.Release

/-!
# Placement

A listed free block is cut into an allocated block of the wanted size and a free rest. As all sizes
are multiples of 16, what is too small to be a block is nothing, so the allocated block has exactly
the wanted size.
-/
namespace BoundaryTag

open Validator (Entry)

namespace Validator.Entry

variable {wanted : Nat}

/-- The allocated block that is cut off the front of a free block. -/
def taking (entry : Entry) (wanted : Nat) : Entry :=
  ⟨entry.offset, { entry.header with units := wanted / 16, allocated := true }⟩

/-- The free block that is left of a free block. -/
def leaving (entry : Entry) (wanted : Nat) : Entry :=
  make (entry.offset + wanted) (entry.size - wanted) false true (wanted == 16)

/-- What is left of a free block, if anything is. -/
def remainder (entry : Entry) (wanted : Nat) : Option Entry :=
  if wanted < entry.size then some (entry.leaving wanted) else none

theorem size_taking (entry : Entry) (aligned : wanted % 16 = 0) :
    (entry.taking wanted).size = wanted := by
  have units : wanted / 16 * 16 = wanted := by omega
  exact units

theorem stop_taking (entry : Entry) (aligned : wanted % 16 = 0) :
    (entry.taking wanted).stop = entry.offset + wanted := by
  rw [stop, size_taking _ aligned]
  rfl

theorem size_leaving (entry : Entry) (aligned : wanted % 16 = 0) :
    (entry.leaving wanted).size = entry.size - wanted := by
  have multiple := entry.size_mod
  exact size_make _ _ _ _ _ (by omega)

theorem stop_leaving (entry : Entry) (aligned : wanted % 16 = 0) (fits : wanted ≤ entry.size) :
    (entry.leaving wanted).stop = entry.stop := by
  rw [stop, size_leaving _ aligned, stop]
  change entry.offset + wanted + _ = _
  omega

end Validator.Entry

variable {fore right : List Entry} {entry next : Entry} {wanted : Nat}

theorem chain_of_taking (front : (Entry.prologue :: fore ++ [entry]).IsChain Adjoins) :
    (Entry.prologue :: fore ++ [entry.taking wanted]).IsChain Adjoins :=
  chain_replace front rfl rfl rfl nofun

theorem chain_of_whole (front : (Entry.prologue :: fore ++ [entry]).IsChain Adjoins)
    (back : (entry :: next :: right).IsChain Adjoins) :
    (Entry.prologue :: fore ++ entry.taking entry.size ::
      next.recording true (entry.size == 16) :: right).IsChain Adjoins := by
  obtain ⟨adjoins, rest⟩ := List.isChain_cons_cons.mp back
  have size := entry.size_taking entry.size_mod
  refine List.isChain_append_cons_cons.mpr ⟨chain_of_taking front, ⟨?_, rfl, ?_, nofun⟩,
    chain_recording rest⟩
  · rw [Entry.stop, size]
    exact adjoins.place
  · rw [size]
    rfl

theorem chain_of_cut (front : (Entry.prologue :: fore ++ [entry]).IsChain Adjoins)
    (back : (entry :: next :: right).IsChain Adjoins) (taken : next.header.allocated = true)
    (aligned : wanted % 16 = 0) (fits : wanted ≤ entry.size) :
    (Entry.prologue :: fore ++ entry.taking wanted :: entry.leaving wanted ::
      next.recording false ((entry.leaving wanted).size == 16) :: right).IsChain Adjoins := by
  obtain ⟨adjoins, rest⟩ := List.isChain_cons_cons.mp back
  refine List.isChain_append_cons_cons.mpr ⟨chain_of_taking front, ⟨?_, rfl, ?_, nofun⟩,
    List.isChain_cons_cons.mpr ⟨⟨?_, rfl, rfl, fun _ free => ?_⟩, chain_recording rest⟩⟩
  · rw [entry.stop_taking aligned]
    rfl
  · rw [entry.size_taking aligned]
    rfl
  · rw [entry.stop_leaving aligned fits]
    exact adjoins.place
  · exact Entry.not_free_of_allocated taken free

theorem held_taking (aligned : wanted % 16 = 0) (offset size : Nat) :
    Held [entry.taking wanted] offset size ↔ offset = entry.offset ∧ size = wanted := by
  have same : (entry.taking wanted).offset = entry.offset := rfl
  have allocated : (entry.taking wanted).header.allocated = true := rfl
  rw [held_cons, same, entry.size_taking aligned, or_iff_left (held_nil _ _)]
  simp [allocated, eq_comm]

/-- What is taken from the front of a block fits where the block stands. -/
theorem taking_fits {arena : Arena} {lists : FreeLists} {shelf : List Entry} {chains : Chains}
    (draft : Draft arena lists (fore ++ entry :: next :: right) shelf chains)
    (aligned : wanted % 16 = 0) (real : 16 ≤ wanted) (fits : wanted ≤ entry.size) :
    Fits arena (fore ++ entry :: next :: right) fore (entry.taking wanted) (next :: right) := by
  have slot : Fits arena (fore ++ entry :: next :: right) fore entry (next :: right) :=
    draft.fits rfl rfl
  obtain ⟨kept, behind, ahead, place, low, high⟩ := slot
  have stop := entry.stop_taking aligned
  have size := entry.size_taking aligned
  have within : (entry.taking wanted).stop ≤ entry.stop := by
    rw [stop, Entry.stop]
    omega
  refine ⟨kept, behind, fun other there => ⟨?_, by omega⟩, place, low, high.1, by omega⟩
  exact Nat.le_trans within (ahead other there).1

/-- What is left fits between what is taken and the next block. -/
theorem leaving_fits {arena after : Arena} {lists edited : FreeLists} {shelf other : List Entry}
    {chains others : Chains}
    (draft : Draft arena lists (fore ++ entry :: next :: right) shelf chains)
    (written : Draft after edited (fore ++ entry.taking wanted :: next :: right) other others)
    (aligned : wanted % 16 = 0) (real : 16 ≤ wanted) (splits : wanted + 16 ≤ entry.size)
    (meets : entry.stop = next.offset) :
    Fits after (fore ++ entry.taking wanted :: next :: right) (fore ++ [entry.taking wanted])
      (entry.leaving wanted) (next :: right) := by
  -- The rest stands in the slot of the whole block, behind the part that is taken.
  have slot : Fits arena (fore ++ entry :: next :: right) fore entry (next :: right) :=
    draft.fits rfl rfl
  have width : (entry.leaving wanted).size = entry.size - wanted := entry.size_leaving aligned
  have stop : (entry.leaving wanted).stop = entry.stop := entry.stop_leaving aligned (by omega)
  have start : (entry.leaving wanted).offset = entry.offset + wanted := rfl
  have ends : (entry.taking wanted).stop = entry.offset + wanted := entry.stop_taking aligned
  have low := draft.low entry (by simp)
  have whole : entry.offset + entry.size = next.offset := meets
  have nextHigh := written.high next (by simp)
  have place := draft.aligned entry (by simp)
  refine ⟨by simp, ?_, ?_, by omega, by omega, by omega⟩
  · intro block there
    rcases List.mem_append.mp there with here | here
    · have ahead := slot.behind block here
      exact ⟨Nat.le_trans ahead.1 (Nat.le_add_right _ _), ahead.2⟩
    · obtain rfl := List.mem_singleton.mp here
      refine ⟨Nat.le_of_eq ends, ?_⟩
      rw [entry.size_taking aligned]
      exact real
  · intro block there
    refine ⟨?_, by omega⟩
    rw [stop]
    exact (slot.ahead block there).1

/-- The chains after a listed free block has been cut: it is on no list any more, and what is left
of it is the head of its bucket, if anything is. -/
def Chains.cutting (chains : Chains) (entry : Entry) (wanted : Nat) : Chains :=
  if minBlockSize ≤ entry.size - wanted then
    (chains.drop entry.offset).push (Bucket.classify (entry.size - wanted)) (entry.offset + wanted)
  else chains.drop entry.offset

/-- The row in which a free block of another row has been cut. The block behind it records the part
that it now stands behind. -/
def Cut (entry : Entry) (wanted : Nat) (row others : List Entry) : Prop :=
  ∃ (left : List Entry) (next : Entry) (right : List Entry), row = left ++ entry :: next :: right
    ∧ others = left ++ entry.taking wanted :: ((entry.remainder wanted).toList ++
      next.recording (entry.remainder wanted).isNone
        (((entry.remainder wanted).getD (entry.taking wanted)).size == 16) :: right)

/-- When the taken part of a free block and the rest of it, if there is one, fit into the chain, the
draft is a layout that holds one block more. -/
theorem Draft.settles_cut {arena : Arena} {lists : FreeLists} {chains : Chains} {aft : List Entry}
    {final : Entry} {prevAllocated prevMinimal : Bool} (rest : Option Entry)
    (draft : Draft arena lists
      (fore ++ entry.taking wanted ::
        (rest.toList ++ next.recording prevAllocated prevMinimal :: right))
      (fore ++ entry.taking wanted ::
        (rest.toList ++ next.recording prevAllocated prevMinimal :: right)) chains)
    (split : aft ++ [final] = next :: right)
    (chain : (Entry.prologue :: fore ++ entry.taking wanted ::
      (rest.toList ++ next.recording prevAllocated prevMinimal :: right)).IsChain Adjoins)
    (sentinel : final.header.isSentinel = true) (top : final.offset + 8 = arena.hi)
    (free : entry.IsFree) (aligned : wanted % 16 = 0)
    (clean : ∀ other ∈ fore ++ entry :: aft, other.header.reserved = false)
    (unused : ∀ part ∈ rest, part.IsFree ∧ part.header.reserved = false) :
    ∃ others : Layout, others.Describes arena lists ∧ others.chains = chains
      ∧ others.blocks ++ [arena.epilogue] = fore ++ entry.taking wanted ::
        (rest.toList ++ next.recording prevAllocated prevMinimal :: right)
      ∧ ∀ offset size, Held others.blocks offset size ↔
        Held (fore ++ entry :: aft) offset size ∨ (offset = entry.offset ∧ size = wanted) := by
  have regrouped : fore ++ entry.taking wanted ::
      (rest.toList ++ next.recording prevAllocated prevMinimal :: right) =
        (fore ++ entry.taking wanted :: rest.toList) ++
          next.recording prevAllocated prevMinimal :: right := by simp
  rw [List.cons_append, regrouped] at chain
  rw [regrouped] at draft
  have fresh (part : Entry) (member : part ∈ rest.toList) :=
    unused part (Option.mem_toList.mp member)
  obtain ⟨others, described, lists, rows, -, held⟩ := draft.settles split chain sentinel top (by
      simp only [List.forall_mem_append, List.forall_mem_cons]
      refine ⟨fun other there => clean other (by simp [there]), clean entry (by simp), ?_⟩
      exact fun part member => (fresh part member).2)
    fun other there => clean other (by simp [there])
  refine ⟨others, described, lists, rows.trans regrouped.symm, fun offset size => ?_⟩
  -- The rest is not allocated, and neither was the block that has been cut.
  have none : ¬Held rest.toList offset size :=
    not_held_of_free (fun part member => (fresh part member).1) offset size
  rw [held, held_append_cons_of_free free, held_append, held_append, ← List.singleton_append,
    held_append, held_taking aligned, or_iff_left none, or_right_comm]

namespace Heap

variable {heap : Heap} {chains : Chains}

/-- The first step of both ways to place a block, which is on no list any more. -/
theorem take_returns
    (draft : Draft heap.arena heap.lists (fore ++ entry :: next :: right) (fore ++ next :: right)
      chains)
    (clean : entry.header.reserved = false) (aligned : wanted % 16 = 0) (real : 16 ≤ wanted)
    (fits : wanted ≤ entry.size) :
    Returns (onArena ((Block.mk entry.offset).writeAllocated wanted entry.header.prevAllocated
        entry.header.prevMinimal)) heap fun _ after =>
      Draft after.arena after.lists (fore ++ entry.taking wanted :: next :: right)
          (fore ++ entry.taking wanted :: next :: right) chains
        ∧ Alters (Outside (fore ++ next :: right)) heap after := by
  have below := heap.arena.hi_lt
  have high := draft.high entry (by simp)
  have slot := taking_fits draft aligned real fits
  have size := entry.size_taking aligned
  have writes := Block.writeAllocated_returns (entry.taking wanted) rfl clean slot.high.1
    (by unfold Entry.stop at high; omega)
  rw [size] at writes
  have taken : ¬(entry.taking wanted).IsFree := nofun
  refine (write_returns (entry.taking wanted) draft slot writes (.refl _)
    (fun _ free => mem_iff_of_taken taken free) fun _ there _ => there).mono ?_
  rintro ⟨⟩ after ⟨edited, alters, -⟩
  exact ⟨edited, alters.mono fun _ outside => outside.subset (by simp)⟩

/-- A free block that is taken as a whole. -/
theorem keep_returns
    (draft : Draft heap.arena heap.lists (fore ++ entry :: next :: right) (fore ++ next :: right)
      chains)
    (clean : entry.header.reserved = false) (real : 16 ≤ entry.size)
    (taken : next.header.allocated = true) (meets : entry.stop = next.offset) :
    Returns (do
        onArena ((Block.mk entry.offset).writeAllocated entry.size entry.header.prevAllocated
          entry.header.prevMinimal)
        onArena ((← readArena (Block.mk entry.offset).next).setPrevStatus true
          (entry.size == minBlockSize)))
      heap fun _ after =>
        Draft after.arena after.lists
            (fore ++ entry.taking entry.size :: next.recording true (entry.size == 16) :: right)
            (fore ++ entry.taking entry.size :: next.recording true (entry.size == 16) :: right)
            chains
          ∧ Alters (Outside (fore ++ next :: right)) heap after := by
  refine (take_returns draft clean entry.size_mod real (Nat.le_refl _)).bind ?_
  rintro ⟨⟩ first ⟨edited, written⟩
  have below := first.arena.hi_lt
  have size := entry.size_taking entry.size_mod
  have stop : (entry.taking entry.size).stop = next.offset := by
    rw [← meets]
    exact entry.stop_taking entry.size_mod
  have high := edited.high (entry.taking entry.size) (by simp)
  have following := Block.next_of_stored (entry.taking entry.size)
    (edited.stored (entry.taking entry.size) (by simp)) high.1 (by omega) (by omega)
  rw [stop] at following
  refine Returns.step (readArena_of_ok following) ?_
  -- Seen from the next block, the block just taken is part of what lies before.
  have regrouped : Draft first.arena first.lists
      ((fore ++ [entry.taking entry.size]) ++ next :: right)
      ((fore ++ [entry.taking entry.size]) ++ next :: right) chains := by
    simpa using edited
  refine (setPrevStatus_returns true (entry.size == 16) taken regrouped (.refl _) (.refl _)).mono ?_
  rintro ⟨⟩ second ⟨recorded, noted⟩
  refine ⟨by simpa using recorded, written.trans (noted.toAlters.mono fun _ outside => ?_)⟩
  exact outside.subset (by simp)

/-- A free block that is cut in two. -/
theorem cut_returns
    (draft : Draft heap.arena heap.lists (fore ++ entry :: next :: right) (fore ++ next :: right)
      chains)
    (clean : entry.header.reserved = false) (aligned : wanted % 16 = 0) (real : 16 ≤ wanted)
    (splits : wanted + 16 ≤ entry.size) (taken : next.header.allocated = true)
    (meets : entry.stop = next.offset) :
    Returns (do
        onArena ((Block.mk entry.offset).writeAllocated wanted entry.header.prevAllocated
          entry.header.prevMinimal)
        let rest ← (Block.mk entry.offset).after wanted
        onArena (rest.writeFree (entry.size - wanted) true (wanted == minBlockSize))
        onArena ((← readArena rest.next).setPrevStatus false
          (entry.size - wanted == minBlockSize))
        onLists (·.insert rest))
      heap fun _ after =>
        Draft after.arena after.lists
            (fore ++ entry.taking wanted :: entry.leaving wanted ::
              next.recording false ((entry.leaving wanted).size == 16) :: right)
            (fore ++ entry.taking wanted :: entry.leaving wanted ::
              next.recording false ((entry.leaving wanted).size == 16) :: right)
            (chains.push (Bucket.classify (entry.size - wanted)) (entry.offset + wanted))
          ∧ Alters (Outside (fore ++ next :: right)) heap after := by
  refine (take_returns draft clean aligned real (by omega)).bind ?_
  rintro ⟨⟩ first ⟨edited, written⟩
  have below := first.arena.hi_lt
  have width : (entry.leaving wanted).size = entry.size - wanted := entry.size_leaving aligned
  have stop : (entry.leaving wanted).stop = next.offset := by
    rw [← meets]
    exact entry.stop_leaving aligned (by omega)
  have start : (entry.leaving wanted).offset = entry.offset + wanted := rfl
  have whole : entry.offset + entry.size = next.offset := meets
  have nextHigh := edited.high next (by simp)
  refine Returns.step (lift_of_ok (Block.after_of_lt (by omega))) ?_
  -- The rest is written between the new block and the next one.
  have slot := leaving_fits draft edited aligned real splits meets
  have writes := Block.writeFree_returns (entry.leaving wanted) rfl rfl slot.high.1 slot.high.2
    (by omega)
  rw [width] at writes
  have shelved : (fore ++ entry.taking wanted :: next :: right).Sublist
      (fore ++ [entry.taking wanted] ++ entry.leaving wanted :: next :: right) := by simp
  refine (write_returns (entry.leaving wanted) edited slot writes shelved (fun _ _ => Iff.rfl)
    fun _ there _ => by simpa using there).bind ?_
  rintro ⟨⟩ second ⟨left, cut, -⟩
  have following := Block.next_of_stored (entry.leaving wanted)
    (left.stored (entry.leaving wanted) (by simp)) (left.high (entry.leaving wanted) (by simp)).1
    (by omega) (by omega)
  rw [stop] at following
  refine Returns.step (readArena_of_ok following) ?_
  have regrouped : Draft second.arena second.lists
      ((fore ++ [entry.taking wanted, entry.leaving wanted]) ++ next :: right)
      ((fore ++ [entry.taking wanted]) ++ next :: right) chains := by
    simpa using left
  refine (setPrevStatus_returns false (entry.size - wanted == 16) taken regrouped (by simp)
    (.refl _)).bind ?_
  rintro ⟨⟩ third ⟨recorded, noted⟩
  rw [← width] at recorded
  -- Only the rest is not on the shelf yet.
  have unlisted : Draft third.arena third.lists
      (fore ++ entry.taking wanted :: entry.leaving wanted ::
        next.recording false ((entry.leaving wanted).size == 16) :: right)
      ((fore ++ [entry.taking wanted]) ++
        next.recording false ((entry.leaving wanted).size == 16) :: right) chains := by
    simpa using recorded
  have free : (entry.leaving wanted).IsFree := rfl
  refine (insert_returns unlisted free (by omega) (by simp)).mono ?_
  rintro ⟨⟩ fourth ⟨listed, slotted⟩
  rw [start, width] at listed
  have older : (fore ++ next :: right).Sublist (fore ++ [entry.taking wanted] ++ next :: right) :=
    by simp
  have kept : (fore ++ [entry.taking wanted] ++ next :: right).Sublist
      (fore ++ [entry.taking wanted, entry.leaving wanted] ++ next :: right) := by simp
  refine ⟨by simpa [width] using listed, ?_⟩
  refine (written.trans (cut.mono fun _ outside => ?_)).trans
    ((noted.toAlters.mono fun _ outside => ?_).trans (slotted.toAlters.mono fun _ outside => ?_))
  · exact outside.subset (by simpa using (older.trans kept).subset)
  · exact outside.subset (older.trans kept).subset
  · have fewer := ((List.sublist_cons_self (entry.leaving wanted)
      (next.recording false ((entry.leaving wanted).size == 16) :: right)).cons
        (entry.taking wanted)).append_left fore
    exact (outside_recording _ _).mp (outside.subset fewer.subset)

/-- Placing makes one more allocated block, of exactly the wanted size. -/
theorem place_returns {layout : Layout} (describes : layout.Describes heap.arena heap.lists)
    (member : entry ∈ layout.blocks) (free : entry.IsFree) (aligned : wanted % 16 = 0)
    (real : 16 ≤ wanted) (fits : wanted ≤ entry.size) :
    Returns (place ⟨entry.offset⟩ wanted) heap fun _ after =>
      ∃ others : Layout, others.Describes after.arena after.lists
        ∧ (∀ offset size, Held others.blocks offset size ↔
          Held layout.blocks offset size ∨ (offset = entry.offset ∧ size = wanted))
        ∧ others.chains = layout.chains.cutting entry wanted
        ∧ Cut entry wanted (layout.blocks ++ [heap.arena.epilogue])
          (others.blocks ++ [after.arena.epilogue])
        ∧ Alters (Outside layout.blocks) heap after := by
  obtain ⟨blocks, chains⟩ := layout
  obtain ⟨fore, aft, rfl⟩ := List.append_of_mem member
  have tiling := describes.tiling
  have clean (other : Entry) (there : other ∈ fore ++ entry :: aft) :=
    tiling.reserved other there
  have whole := Draft.of_describes describes
  simp only [List.append_assoc, List.cons_append] at whole
  obtain ⟨front, back⟩ := tiling.split
  obtain ⟨next, right, split⟩ : ∃ next right, aft ++ [heap.arena.epilogue] = next :: right :=
    List.exists_cons_of_ne_nil (by simp)
  rw [split] at whole back
  have adjoins := (List.isChain_cons_cons.mp back).1
  have taken : next.header.allocated = true := eq_true_of_ne_false (adjoins.separated free)
  have header := Block.header_of_stored entry (whole.stored entry (by simp))
    (whole.high entry (by simp)).1
  have guard : (!entry.header.allocated && decide (wanted ≤ entry.header.size)) = true := by
    rw [free, Bool.not_false, Bool.true_and, decide_eq_true_eq]
    exact fits
  unfold place
  refine Returns.step (readArena_of_ok header) ?_
  refine Returns.step (lift_of_ok (ensure_of_true _ guard)) ?_
  refine (remove_returns whole free).bind ?_
  rintro ⟨⟩ first ⟨unlisted, removed⟩
  have multiple := entry.size_mod
  -- Both ways to go on leave the break and all payloads alone.
  have top (after : Heap) (alters : Alters (Outside (fore ++ next :: right)) first after) :
      heap.arena.epilogue.offset + 8 = after.arena.hi := by
    have room := tiling.room
    rw [alters.confined.hi, removed.confined.hi]
    change heap.arena.hi - 8 + 8 = heap.arena.hi
    omega
  have spared (after : Heap) (alters : Alters (Outside (fore ++ next :: right)) first after) :
      Alters (Outside (fore ++ entry :: aft)) heap after := by
    rw [← split] at removed alters
    refine (removed.toAlters.mono fun _ outside => ?_).trans (alters.mono fun _ outside => ?_)
    · exact outside.subset (((List.sublist_append_left aft _).cons_cons entry).append_left
        fore).subset
    · refine outside.of_held fun offset size holds => ?_
      rw [held_append, held_append]
      exact ((held_append_cons_of_free free offset size).mp holds).imp_right .inl
  by_cases splits : minBlockSize ≤ entry.header.size - wanted
  · have room : 16 ≤ entry.size - wanted := splits
    have left : entry.remainder wanted = some (entry.leaving wanted) := if_pos (by omega)
    have cut := cut_returns unlisted (clean entry member) aligned real (by omega) taken
      adjoins.place.symm
    dsimp only
    rw [if_pos splits]
    refine cut.mono ?_
    rintro ⟨⟩ second ⟨edited, alters⟩
    obtain ⟨others, described, lists, rows, held⟩ :=
      edited.settles_cut (some (entry.leaving wanted)) split
        (chain_of_cut front back taken aligned fits) tiling.epilogue (top second alters) free
        aligned clean (by simpa using ⟨rfl, rfl⟩)
    exact ⟨others, described, held, lists.trans (if_pos splits).symm,
      ⟨fore, next, right, by simp [split], by simp [rows, left]⟩, spared second alters⟩
  · -- Both sizes are multiples of 16, so a rest that is no block is no rest.
    have close : ¬16 ≤ entry.size - wanted := splits
    obtain rfl : wanted = entry.size := by omega
    have used : entry.remainder entry.size = none := if_neg (Nat.lt_irrefl _)
    have size := entry.size_taking entry.size_mod
    have kept := keep_returns unlisted (clean entry member) real taken adjoins.place.symm
    dsimp only
    rw [if_neg splits]
    refine kept.mono ?_
    rintro ⟨⟩ second ⟨edited, alters⟩
    obtain ⟨others, described, lists, rows, held⟩ :=
      edited.settles_cut none split (chain_of_whole front back) tiling.epilogue
        (top second alters) free aligned clean nofun
    exact ⟨others, described, held, lists.trans (if_neg splits).symm,
      ⟨fore, next, right, by simp [split], by simp [rows, used, size]⟩, spared second alters⟩

end Heap

end BoundaryTag
