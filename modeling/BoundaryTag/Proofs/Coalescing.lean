import BoundaryTag.Heap.Allocation
import BoundaryTag.Proofs.Joints

/-!
# Coalescing

A free block that is on no list is joined with its free neighbours, step by step from draft to
draft. That the joined block fits into the chain of blocks is a matter of entries only and does not
come up here.
-/
namespace BoundaryTag

open Validator (Entry)

def Chains.dropAll (chains : Chains) (offsets : List Nat) : Chains :=
  offsets.foldl Chains.drop chains

@[simp] theorem Chains.dropAll_nil (chains : Chains) : chains.dropAll [] = chains := rfl

@[simp] theorem Chains.dropAll_cons (chains : Chains) (offset : Nat) (rest : List Nat) :
    chains.dropAll (offset :: rest) = (chains.drop offset).dropAll rest := rfl

/-- Where the block starts that a new free block becomes part of, given what stands before it. -/
def joinedStart (fore : List Entry) (offset : Nat) : Nat :=
  (lastFree fore).elim offset (·.offset)

/-- The size of the block that a new free block becomes part of. -/
def joinedSize (fore : List Entry) (size : Nat) (aft : List Entry) : Nat :=
  (lastFree fore).elim 0 Entry.size + size + (firstFree aft).elim 0 Entry.size

/-- The chains after a new free block has been joined with the free blocks around it: these are on
no list any more, and what they make together is the head of its bucket. -/
def Chains.joining (chains : Chains) (fore : List Entry) (offset size : Nat) (aft : List Entry) :
    Chains :=
  (chains.dropAll (((lastFree fore).toList ++ (firstFree aft).toList).map (·.offset))).push
    (Bucket.classify (joinedSize fore size aft)) (joinedStart fore offset)

section Joined

variable {fore aft : List Entry} {before behind : Option Entry} {block next : Entry}
  (joint : Joint before block behind next) (last : before = lastFree fore)
  (first : behind = firstFree aft)

include joint last first

theorem joined_of_joint : (merged before block next).offset = joinedStart fore block.offset
    ∧ (merged before block next).size = joinedSize fore block.size aft := by
  constructor
  · rw [joinedStart, ← last]
    cases before <;> rfl
  · rw [size_merged joint, joinedSize, ← last, ← first]

theorem Chains.joining_of_joint (chains : Chains) :
    chains.joining fore block.offset block.size aft =
      (chains.dropAll ((before.toList ++ behind.toList).map (·.offset))).push
        (Bucket.classify (merged before block next).size) (merged before block next).offset := by
  obtain ⟨start, size⟩ := joined_of_joint joint last first
  rw [joining, start, size, last, first]

end Joined

/-- What is free after a joining starts where the joined block does, or was there before. -/
theorem Joined.mem_of_free {fore aft row : List Entry} {block entry : Entry}
    (joined : Joined fore block aft row) (member : entry ∈ row) (free : entry.IsFree)
    (other : entry.offset ≠ joinedStart fore block.offset) : entry ∈ fore ∨ entry ∈ aft := by
  obtain ⟨left, before, behind, next, right, foreEq, last, aftEq, first, joint, rfl⟩ := joined
  obtain ⟨start, -⟩ := joined_of_joint joint last first
  rw [List.mem_append, List.mem_cons, List.mem_cons] at member
  rcases member with here | rfl | rfl | here
  · exact .inl (foreEq ▸ List.mem_append_left _ here)
  · exact absurd start other
  · exact absurd free (Entry.not_free_of_allocated joint.taken)
  · rw [aftEq]
    exact .inr (List.mem_append_right _ (List.mem_cons_of_mem _ here))

namespace Heap

/-- The configuration stays, and so does every byte at an untouched position. -/
structure Alters (touched : Nat → Prop) (before after : Heap) : Prop where
  config : after.config = before.config
  confined : Arena.Confined touched before.arena after.arena

namespace Alters

variable {touched other : Nat → Prop} {first second third : Heap}

theorem mono (alters : Alters touched first second)
    (wider : ∀ position, touched position → other position) : Alters other first second :=
  ⟨alters.config, alters.confined.mono wider⟩

theorem trans (left : Alters touched first second) (right : Alters touched second third) :
    Alters touched first third :=
  ⟨right.config.trans left.config, left.confined.trans right.confined⟩

end Alters

/-- What is altered on the way to a free block: no header of an allocated block appears. -/
structure Frees (touched : Nat → Prop) (before after : Heap) : Prop
    extends Alters touched before after where
  idle : before.arena.StaysIdle after.arena

namespace Frees

variable {touched other : Nat → Prop} {first second third : Heap}

theorem refl (touched : Nat → Prop) (heap : Heap) : Frees touched heap heap :=
  ⟨⟨rfl, .refl _ _⟩, .refl _⟩

theorem mono (frees : Frees touched first second)
    (wider : ∀ position, touched position → other position) : Frees other first second :=
  ⟨frees.toAlters.mono wider, frees.idle⟩

theorem trans (left : Frees touched first second) (right : Frees touched second third) :
    Frees touched first third :=
  ⟨left.toAlters.trans right.toAlters, left.idle.trans right.idle⟩

end Frees

variable {heap : Heap}

theorem onArena_returns {Result : Type} {action : ArenaM Result} {post : Result → Arena → Prop}
    (returns : Returns action heap.arena post) :
    Returns (onArena action) heap fun result after =>
      after = { heap with arena := after.arena } ∧ post result after.arena := by
  obtain ⟨result, after, run, holds⟩ := returns
  exact .of_eq (onArena_of_ok run) ⟨rfl, holds⟩

theorem onLists_returns {action : FreeLists → ArenaM FreeLists} {post : FreeLists → Arena → Prop}
    (returns : Returns (action heap.lists) heap.arena post) :
    Returns (onLists action) heap fun _ after =>
      after = { heap with arena := after.arena, lists := after.lists }
        ∧ post after.lists after.arena := by
  obtain ⟨lists, after, run, holds⟩ := returns
  exact .of_eq (onLists_of_ok run) ⟨rfl, holds⟩

theorem remove_returns {row front back : List Entry} {chains : Chains} {entry : Entry}
    (draft : Draft heap.arena heap.lists row (front ++ entry :: back) chains)
    (free : entry.IsFree) :
    Returns (onLists (·.remove ⟨entry.offset⟩)) heap fun _ after =>
      Draft after.arena after.lists row (front ++ back) (chains.drop entry.offset)
        ∧ Frees (Outside row) heap after := by
  refine (onLists_returns (draft.remove_returns free)).mono ?_
  rintro ⟨⟩ after ⟨same, edited, confined, idle⟩
  exact ⟨edited, ⟨by rw [same], confined⟩, idle⟩

theorem insert_returns {row front back : List Entry} {chains : Chains} {entry : Entry}
    (draft : Draft heap.arena heap.lists row (front ++ back) chains) (free : entry.IsFree)
    (real : 16 ≤ entry.size) (shelved : (front ++ entry :: back).Sublist row) :
    Returns (onLists (·.insert ⟨entry.offset⟩)) heap fun _ after =>
      Draft after.arena after.lists row (front ++ entry :: back)
          (chains.push (Bucket.classify entry.size) entry.offset)
        ∧ Frees (Outside row) heap after := by
  refine (onLists_returns (draft.insert_returns free real shelved)).mono ?_
  rintro ⟨⟩ after ⟨same, edited, confined, idle⟩
  exact ⟨edited, ⟨by rw [same], confined⟩, idle⟩

/-- Writing the tags of a block between two parts of a row, over what stood there. -/
theorem write_returns {action : ArenaM Unit} {row shelf front back other : List Entry}
    {chains : Chains} (entry : Entry) (draft : Draft heap.arena heap.lists row shelf chains)
    (fits : Fits heap.arena row front entry back)
    (writes : Returns action heap.arena fun _ after =>
      Arena.Confined entry.Tag heap.arena after ∧ entry.Stored after)
    (shelved : other.Sublist (front ++ entry :: back))
    (same : ∀ block : Entry, block.IsFree → (block ∈ other ↔ block ∈ shelf))
    (spared : ∀ block ∈ shelf, block.IsFree → block ∈ front ++ back) :
    Returns (onArena action) heap fun _ after =>
      Draft after.arena after.lists (front ++ entry :: back) other chains
        ∧ Alters (Outside (front ++ entry :: back)) heap after
        ∧ (entry.IsFree ∨ ¬heap.arena.Idle entry.offset →
          Frees (Outside (front ++ entry :: back)) heap after) := by
  refine (onArena_returns writes).mono ?_
  rintro ⟨⟩ after ⟨only, confined, stored⟩
  have lists : after.lists = heap.lists := by rw [only]
  obtain ⟨edited, outside⟩ := draft.write fits confined stored shelved same spared
  have alters : Alters (Outside (front ++ entry :: back)) heap after := ⟨by rw [only], outside⟩
  exact ⟨lists ▸ edited, alters, fun calm =>
    ⟨alters, stored.staysIdle confined fits.aligned calm⟩⟩

theorem freePredecessor_of_stored {arena : Arena} (left block : Entry)
    (leftStored : left.Stored arena) (stored : block.Stored arena) (free : left.IsFree)
    (real : 16 ≤ left.size) (meets : left.stop = block.offset)
    (inside : block.offset + 8 ≤ arena.hi)
    (flag : block.header.prevMinimal = (left.size == 16)) :
    freePredecessor ⟨block.offset⟩ arena = .ok ⟨left.offset⟩ := by
  have found := Block.prev_of_stored left block leftStored stored free real meets inside flag
  rw [freePredecessor, except_bind_of_ok found]
  rfl

/-- What is read of a free block and of the block behind it. The flags in these two headers tell
which of its neighbours are free. -/
theorem reads_of_joint {arena : Arena} {lists : FreeLists} {row shelf left right : List Entry}
    {before behind : Option Entry} {block next : Entry} {chains : Chains}
    (joint : Joint before block behind next) (draft : Draft arena lists row shelf chains)
    (rows : row = left ++ block :: (behind.toList ++ next :: right)) :
    (Block.mk block.offset).header arena = .ok block.header
      ∧ (Block.mk block.offset).next arena = .ok ⟨(behind.getD next).offset⟩
      ∧ (Block.mk (behind.getD next).offset).header arena = .ok (behind.getD next).header
      ∧ (behind.getD next).header.allocated = behind.isNone := by
  have below := arena.hi_lt
  have here : block ∈ row := by simp [rows]
  have there : behind.getD next ∈ row := by
    rw [rows]
    cases behind <;> simp
  have room := draft.high block here
  have ordered := draft.ordered
  rw [rows] at ordered
  have real : 16 ≤ block.size :=
    ((List.pairwise_cons.mp (List.pairwise_append.mp ordered).2.1).1 next (by simp)).2
  have following := Block.next_of_stored block (draft.stored block here) room.1 (by omega)
    (by omega)
  rw [joint.meets] at following
  refine ⟨Block.header_of_stored block (draft.stored block here) room.1, following,
    Block.header_of_stored _ (draft.stored _ there) (draft.high _ there).1, ?_⟩
  cases behind with
  | none => exact joint.taken
  | some succ => exact (joint.behind_free succ rfl).1

/-- The sizes of the free neighbours and of the block add up to the room up to the next block. -/
theorem absorbNeighbours_returns {left right : List Entry} {before behind : Option Entry}
    {block next : Entry} {chains : Chains} (joint : Joint before block behind next)
    (draft : Draft heap.arena heap.lists
      (left ++ before.toList ++ block :: (behind.toList ++ next :: right))
      (left ++ before.toList ++ (behind.toList ++ next :: right)) chains) :
    Returns (absorbNeighbours ⟨block.offset⟩) heap fun (start, size) after =>
      start = ⟨(before.getD block).offset⟩ ∧ size = next.offset - (before.getD block).offset
        ∧ Draft after.arena after.lists
          (left ++ before.toList ++ block :: (behind.toList ++ next :: right))
          (left ++ next :: right)
          (chains.dropAll ((before.toList ++ behind.toList).map (·.offset)))
        ∧ Frees (Outside (left ++ before.toList ++ block :: (behind.toList ++ next :: right)))
          heap after := by
  obtain ⟨header, following, nextHeader, open_iff⟩ := reads_of_joint joint draft rfl
  obtain ⟨free, flag, beforeFree, behindFree, meets, -⟩ := joint
  have below := heap.arena.hi_lt
  obtain ⟨-, -, cross⟩ := List.pairwise_append.mp draft.ordered
  have room := draft.high block (by simp)
  unfold absorbNeighbours
  refine Returns.step (readArena_of_ok header) ?_
  refine Returns.step (lift_of_ok (ensure_of_true _ (by rw [free]; rfl))) ?_
  refine Returns.step (readArena_of_ok following) ?_
  refine Returns.step (readArena_of_ok nextHeader) ?_
  rw [flag, open_iff]
  have nextRoom := draft.high next (by simp)
  -- One case for each choice of free neighbours; each of them is taken off its list.
  cases before with
  | none =>
    cases behind with
    | none =>
      have meets : block.offset + block.size = next.offset := meets
      refine Returns.pure ⟨rfl, ?_, by simpa using draft, .refl _ _⟩
      change block.size = next.offset - block.offset
      omega
    | some succ =>
      obtain ⟨succFree, succStop⟩ := behindFree succ rfl
      have meets : block.offset + block.size = succ.offset := meets
      have succStop : succ.offset + succ.size = next.offset := succStop
      have sum : addWord block.header.size succ.header.size = .ok (block.size + succ.size) :=
        addWord_of_lt block.size succ.size (by omega)
      refine (remove_returns (by simpa using draft) succFree).bind ?_
      rintro ⟨⟩ after ⟨edited, alters⟩
      refine Returns.step (lift_of_ok sum) (Returns.pure ⟨rfl, ?_, by simpa using edited, ?_⟩)
      · change block.size + succ.size = next.offset - block.offset
        omega
      · simpa using alters
  | some pred =>
    obtain ⟨predFree, predStop, minimal⟩ := beforeFree pred rfl
    have predReal : 16 ≤ pred.size := (cross pred (by simp) block (by simp)).2
    -- The block before is found from the block, by the flag or by its footer.
    have found := freePredecessor_of_stored pred block (draft.stored pred (by simp))
      (draft.stored block (by simp)) predFree predReal predStop room.1 minimal
    have predStop : pred.offset + pred.size = block.offset := predStop
    have ends : block.offset + block.size ≤ heap.arena.hi := room.2
    have sum : addWord pred.size block.header.size = .ok (pred.size + block.size) :=
      addWord_of_lt pred.size block.size (by omega)
    cases behind with
    | none =>
      have meets : block.offset + block.size = next.offset := meets
      refine Returns.step (readArena_of_ok found) ?_
      refine (remove_returns (by simpa using draft) predFree).bind ?_
      rintro ⟨⟩ after ⟨edited, alters⟩
      have size := Block.size_of_stored pred (edited.stored pred (by simp))
        (edited.high pred (by simp)).1
      refine Returns.step (readArena_of_ok size) ?_
      refine Returns.step (lift_of_ok sum) (Returns.pure ⟨rfl, ?_, by simpa using edited, ?_⟩)
      · change pred.size + block.size = next.offset - pred.offset
        omega
      · simpa using alters
    | some succ =>
      obtain ⟨succFree, succStop⟩ := behindFree succ rfl
      have meets : block.offset + block.size = succ.offset := meets
      have succStop : succ.offset + succ.size = next.offset := succStop
      have total : addWord (pred.size + block.size) succ.header.size
          = .ok (pred.size + block.size + succ.size) :=
        addWord_of_lt (pred.size + block.size) succ.size (by omega)
      refine Returns.step (readArena_of_ok found) ?_
      refine (remove_returns (by simpa using draft) predFree).bind ?_
      rintro ⟨⟩ middle ⟨halfway, first⟩
      refine (remove_returns halfway succFree).bind ?_
      rintro ⟨⟩ after ⟨edited, second⟩
      have size := Block.size_of_stored pred (edited.stored pred (by simp))
        (edited.high pred (by simp)).1
      refine Returns.step (readArena_of_ok size) ?_
      refine Returns.step (lift_of_ok sum) (Returns.step (lift_of_ok total) ?_)
      refine Returns.pure ⟨rfl, ?_, by simpa using edited, ?_⟩
      · change pred.size + block.size + succ.size = next.offset - pred.offset
        omega
      · simpa using first.trans second

theorem setPrevStatus_returns {left right front back : List Entry} {next : Entry} {chains : Chains}
    (prevAllocated prevMinimal : Bool) (taken : next.header.allocated = true)
    (draft : Draft heap.arena heap.lists (left ++ next :: right) (front ++ next :: back) chains)
    (before : front.Sublist left) (behind : back.Sublist right) :
    Returns (onArena (Block.setPrevStatus ⟨next.offset⟩ prevAllocated prevMinimal)) heap
      fun _ after => Draft after.arena after.lists
          (left ++ next.recording prevAllocated prevMinimal :: right)
          (front ++ next.recording prevAllocated prevMinimal :: back) chains
        ∧ Frees (Outside (left ++ next :: right)) heap after := by
  have closed : ¬next.IsFree := Entry.not_free_of_allocated taken
  have high := draft.high next (by simp)
  have below := heap.arena.hi_lt
  have bounded : next.size < wordLimit := by
    unfold Entry.stop at high
    omega
  have writes := Block.setPrevStatus_returns next prevAllocated prevMinimal
    (draft.stored next (by simp)) high.1 (fun free => absurd free closed) bounded
  -- Neither the old nor the new entry is free, so the lists do not see the difference.
  have still : ¬(next.recording prevAllocated prevMinimal).IsFree := closed
  refine (write_returns (next.recording prevAllocated prevMinimal) draft (draft.fits rfl rfl)
    writes (before.append (behind.cons_cons _)) ?_ ?_).mono ?_
  · intro block free
    rw [mem_iff_of_taken closed free, mem_iff_of_taken still free]
  · intro block member free
    exact (before.append behind).subset ((mem_iff_of_taken closed free).mp member)
  · rintro ⟨⟩ after ⟨edited, -, calm⟩
    have busy : ¬heap.arena.Idle next.offset :=
      (draft.stored next (by simp)).idle_iff.not.mpr closed
    exact ⟨edited, (calm (.inr busy)).mono fun _ =>
      (outside_recording prevAllocated prevMinimal).mp⟩

/-- The joined block is listed, and the block behind it knows that it is free. -/
theorem coalesce_returns {left right : List Entry} {before behind : Option Entry}
    {block next : Entry} {chains : Chains} (joint : Joint before block behind next)
    (draft : Draft heap.arena heap.lists
      (left ++ before.toList ++ block :: (behind.toList ++ next :: right))
      (left ++ before.toList ++ (behind.toList ++ next :: right)) chains) :
    Returns (coalesce ⟨block.offset⟩) heap fun start after =>
      start = ⟨(before.getD block).offset⟩ ∧ ∃ others,
        Draft after.arena after.lists
          (left ++ merged before block next ::
            next.recording false ((merged before block next).size == 16) :: right)
          (left ++ merged before block next ::
            next.recording false ((merged before block next).size == 16) :: right) others
        ∧ others = (chains.dropAll ((before.toList ++ behind.toList).map (·.offset))).push
            (Bucket.classify (merged before block next).size) (merged before block next).offset
        ∧ Frees (Outside (left ++ next :: right)) heap after := by
  have below := heap.arena.hi_lt
  have nextRoom := draft.high next (by simp)
  have present : before.getD block ∈
      left ++ before.toList ++ block :: (behind.toList ++ next :: right) := by
    cases before <;> simp
  have low := draft.low (before.getD block) present
  refine (absorbNeighbours_returns joint draft).bind ?_
  rintro ⟨start, width⟩ first ⟨rfl, extent, edited, absorbed⟩
  have hi := absorbed.confined.hi
  obtain ⟨stop, size, wide, real, fits⟩ :=
    merged_fits first.arena joint edited.ordered low (edited.aligned _ present) (by omega)
  obtain rfl : width = (merged before block next).size := extent.trans size.symm
  have header := Block.header_of_stored (before.getD block) (edited.stored _ present) (by omega)
  refine Returns.step (readArena_of_ok header) ?_
  refine (write_returns (merged before block next) edited fits
    (Block.writeFree_returns (merged before block next) rfl rfl fits.high.1 fits.high.2 (by omega))
    (by simp) (fun _ _ => Iff.rfl) fun _ there _ => there).bind ?_
  rintro ⟨⟩ second ⟨joined, -, calm⟩
  have written := calm (.inl rfl)
  -- What follows the joined block is the block that followed the parts.
  have after : (Block.mk (before.getD block).offset).after (merged before block next).size
      = .ok ⟨next.offset⟩ := by
    rw [Block.after_of_lt (by omega)]
    congr
  refine Returns.step (lift_of_ok after) ?_
  have regrouped : Draft second.arena second.lists
      ((left ++ [merged before block next]) ++ next :: right) (left ++ next :: right)
      (chains.dropAll ((before.toList ++ behind.toList).map (·.offset))) := by
    simpa using joined
  refine (setPrevStatus_returns false ((merged before block next).size == 16) joint.taken regrouped
    (List.sublist_append_left _ _) (.refl _)).bind ?_
  rintro ⟨⟩ third ⟨recorded, noted⟩
  have whole : Draft third.arena third.lists
      (left ++ merged before block next ::
        next.recording false ((merged before block next).size == 16) :: right)
      (left ++ next.recording false ((merged before block next).size == 16) :: right)
      (chains.dropAll ((before.toList ++ behind.toList).map (·.offset))) := by
    simpa using recorded
  have unlisted : (merged before block next).IsFree := rfl
  refine (insert_returns whole unlisted (by omega) (.refl _)).bind ?_
  rintro ⟨⟩ fourth ⟨listed, slotted⟩
  refine Returns.pure ⟨rfl, _, listed, rfl, ?_⟩
  -- None of the four steps has touched a payload of a block that stays.
  refine ((absorbed.mono fun _ outside => ?_).trans (written.mono fun _ outside => ?_)).trans
    ((noted.mono fun _ outside => ?_).trans (slotted.mono fun _ outside => ?_))
  · exact outside.subset edited.shelved.subset
  · exact outside.subset joined.shelved.subset
  · exact outside.subset regrouped.shelved.subset
  · exact (outside_recording _ _).mp (outside.subset whole.shelved.subset)

end Heap

end BoundaryTag
