import BoundaryTag.Proofs.Drafts

/-!
# Joining free neighbours

A free block together with the free blocks right before and right behind it becomes one block. What
is said here is about entries, not about the arena: the joined block starts and ends where a block
may, and with it the chain of blocks has no free neighbours again.
-/
namespace BoundaryTag

open Validator (Entry)

/-- A free block with its surroundings: the blocks before it, of which the last may be free, and the
blocks behind it, of which the first may be free. -/
structure Joint (before : Option Entry) (block : Entry) (behind : Option Entry) (next : Entry) :
    Prop where
  free : block.IsFree
  flag : block.header.prevAllocated = before.isNone
  before_free : ∀ left ∈ before, left.IsFree ∧ left.stop = block.offset
    ∧ block.header.prevMinimal = (left.size == 16)
  behind_free : ∀ right ∈ behind, right.IsFree ∧ right.stop = next.offset
  meets : block.stop = (behind.getD next).offset
  taken : next.header.allocated = true

/-- The last of some blocks, if it is free. -/
def lastFree (fore : List Entry) : Option Entry :=
  fore.getLast?.filter (!·.header.allocated)

/-- The first of some blocks, if it is free. -/
def firstFree (aft : List Entry) : Option Entry :=
  aft.head?.filter (!·.header.allocated)

/-- The block that a free block makes together with its free neighbours. -/
def merged (before : Option Entry) (block next : Entry) : Entry :=
  .make (before.getD block).offset (next.offset - (before.getD block).offset) false
    (before.getD block).header.prevAllocated (before.getD block).header.prevMinimal

variable {left right : List Entry} {before behind : Option Entry} {block next : Entry}

theorem Joint.width (joint : Joint before block behind next) :
    (before.getD block).offset + block.size ≤ next.offset
      ∧ (next.offset - (before.getD block).offset) % 16 = 0 := by
  have blockMod := block.size_mod
  have behindEnd : block.stop ≤ next.offset ∧ (next.offset - block.stop) % 16 = 0 := by
    rw [joint.meets]
    cases behind with
    | none => simp
    | some succ =>
      have succStop : succ.offset + succ.size = next.offset := (joint.behind_free succ rfl).2
      have succMod := succ.size_mod
      simp only [Option.getD_some]
      omega
  have start : (before.getD block).offset ≤ block.offset
      ∧ (block.offset - (before.getD block).offset) % 16 = 0 := by
    cases before with
    | none => simp
    | some pred =>
      have predStop : pred.offset + pred.size = block.offset := (joint.before_free pred rfl).2.1
      have predMod := pred.size_mod
      simp only [Option.getD_some]
      omega
  unfold Entry.stop at behindEnd
  omega

/-- The joined block is as large as its parts together. -/
theorem size_merged (joint : Joint before block behind next) :
    (merged before block next).size =
      before.elim 0 Entry.size + block.size + behind.elim 0 Entry.size := by
  have aligned := joint.width.2
  have meets := joint.meets
  have start : before.elim 0 Entry.size + (before.getD block).offset = block.offset := by
    cases before with
    | none => simp
    | some pred =>
      have stop := (joint.before_free pred rfl).2.1
      simp only [Entry.stop, Option.elim_some, Option.getD_some] at *
      omega
  have stop : (behind.getD next).offset + behind.elim 0 Entry.size = next.offset := by
    cases behind with
    | none => simp
    | some succ => exact (joint.behind_free succ rfl).2
  rw [merged, Entry.size_make _ _ _ _ _ aligned]
  unfold Entry.stop at meets
  omega

theorem stop_merged (joint : Joint before block behind next) :
    (merged before block next).stop = next.offset := by
  obtain ⟨wide, aligned⟩ := joint.width
  have size : (merged before block next).size = next.offset - (before.getD block).offset :=
    Entry.size_make _ _ _ _ _ aligned
  have start : (merged before block next).offset = (before.getD block).offset := rfl
  rw [Entry.stop, size, start]
  omega

theorem merged_fits (arena : Arena) (joint : Joint before block behind next)
    (ordered : (left ++ before.toList ++ block :: (behind.toList ++ next :: right)).Pairwise
      Entry.Ahead)
    (low : 8 ≤ (before.getD block).offset) (place : (before.getD block).offset % 16 = 8)
    (high : next.offset ≤ arena.hi) : (merged before block next).stop = next.offset
      ∧ (merged before block next).size = next.offset - (before.getD block).offset
      ∧ (before.getD block).offset + block.size ≤ next.offset ∧ 16 ≤ block.size
      ∧ Fits arena (left ++ before.toList ++ block :: (behind.toList ++ next :: right)) left
        (merged before block next) (next :: right) := by
  obtain ⟨fore, rear, cross⟩ := List.pairwise_append.mp ordered
  obtain ⟨ahead, rest⟩ := List.pairwise_cons.mp rear
  obtain ⟨wide, aligned⟩ := joint.width
  have real : 16 ≤ block.size := (ahead next (by simp)).2
  have size : (merged before block next).size = next.offset - (before.getD block).offset :=
    Entry.size_make _ _ _ _ _ aligned
  have start : (merged before block next).offset = (before.getD block).offset := rfl
  have stop := stop_merged joint
  -- The joined block reaches as far to the left and to the right as its parts do.
  refine ⟨stop, size, wide, real, ?_, ?_, ?_, place, low, by omega⟩
  · rw [List.append_assoc, List.append_sublist_append_left]
    exact .trans (.cons _ (List.sublist_append_right _ _)) (List.sublist_append_right _ _)
  · intro other here
    cases before with
    | none => exact cross other (by simp [here]) block (by simp)
    | some pred => exact (List.pairwise_append.mp fore).2.2 other here pred (by simp)
  · intro other there
    refine ⟨?_, by omega⟩
    rw [stop]
    rcases List.mem_cons.mp there with rfl | later
    · exact Nat.le_refl _
    · have apart := (List.pairwise_cons.mp (List.pairwise_append.mp rest).2.1).1 other later
      exact Nat.le_trans (Nat.le_add_right _ _) apart.1

/-- The last entry of a chain may be replaced by one with the same place and flags, if it is not
free or says that the one before is allocated. -/
theorem chain_replace {front : List Entry} {old new : Entry}
    (chain : (front ++ [old]).IsChain Adjoins) (place : new.offset = old.offset)
    (prevAllocated : new.header.prevAllocated = old.header.prevAllocated)
    (prevMinimal : new.header.prevMinimal = old.header.prevMinimal)
    (settled : new.IsFree → new.header.prevAllocated = true) :
    (front ++ [new]).IsChain Adjoins := by
  obtain ⟨first, -, step⟩ := List.isChain_append.mp chain
  refine List.isChain_append.mpr ⟨first, List.isChain_singleton _, ?_⟩
  rintro last isLast entry ⟨⟩
  have adjoins := step last isLast old rfl
  refine ⟨place.trans adjoins.place, prevAllocated.trans adjoins.prevAllocated,
    prevMinimal.trans adjoins.prevMinimal, fun lastFree free => ?_⟩
  have allocated := (adjoins.prevAllocated.symm.trans prevAllocated.symm).trans (settled free)
  exact absurd (allocated.symm.trans lastFree) (by decide)

theorem prevAllocated_of_free {front : List Entry} {last entry : Entry}
    (chain : (front ++ [entry]).IsChain Adjoins) (isLast : front.getLast? = some last)
    (free : entry.IsFree) : entry.header.prevAllocated = true := by
  have adjoins := (List.isChain_append.mp chain).2.2 last isLast entry rfl
  rw [adjoins.prevAllocated, ← Bool.not_eq_false]
  exact fun lastFree => adjoins.separated lastFree free

theorem chain_recording {prevAllocated prevMinimal : Bool}
    (chain : (next :: right).IsChain Adjoins) :
    (next.recording prevAllocated prevMinimal :: right).IsChain Adjoins := by
  refine chain.imp_head fun adjoins => ?_
  exact ⟨adjoins.place, adjoins.prevAllocated, adjoins.prevMinimal, adjoins.separated⟩

/-- With the joined block in place of its parts the blocks form a chain again. -/
theorem chain_of_joint (joint : Joint before block behind next) {entry : Entry}
    (front : (Entry.prologue :: left ++ before.toList ++ [entry]).IsChain Adjoins)
    (back : (behind.toList ++ next :: right).IsChain Adjoins)
    (place : block.offset = entry.offset)
    (prevAllocated : block.header.prevAllocated = entry.header.prevAllocated)
    (prevMinimal : block.header.prevMinimal = entry.header.prevMinimal) :
    (Entry.prologue :: left ++ merged before block next ::
      next.recording false ((merged before block next).size == 16) :: right).IsChain Adjoins := by
  have stop := stop_merged joint
  -- No other neighbour is free: before a free block and behind it there are allocated ones.
  refine List.isChain_append_cons_cons.mpr ⟨?_, ⟨stop.symm, rfl, rfl, fun _ free => ?_⟩,
    chain_recording back.right_of_append⟩
  · cases before with
    | none =>
      have part : (Entry.prologue :: left ++ [entry]).IsChain Adjoins := by simpa using front
      exact chain_replace part place prevAllocated prevMinimal fun _ => joint.flag
    | some pred =>
      have part : (Entry.prologue :: left ++ [pred]).IsChain Adjoins := front.left_of_append
      obtain ⟨last, isLast⟩ : ∃ last, (Entry.prologue :: left).getLast? = some last :=
        ⟨_, List.getLast?_eq_some_getLast (List.cons_ne_nil _ _)⟩
      have flag := prevAllocated_of_free part isLast (joint.before_free pred rfl).1
      exact chain_replace part rfl rfl rfl fun _ => flag
  · exact Entry.not_free_of_allocated joint.taken free

/-- The last of the blocks before an entry is free or it is not. -/
theorem exists_before {fore : List Entry} {entry : Entry}
    (front : (Entry.prologue :: fore ++ [entry]).IsChain Adjoins) :
    ∃ (left : List Entry) (before : Option Entry), fore = left ++ before.toList
      ∧ before = lastFree fore ∧ entry.header.prevAllocated = before.isNone
      ∧ ∀ pred ∈ before, pred.IsFree ∧ pred.stop = entry.offset
        ∧ entry.header.prevMinimal = (pred.size == 16) := by
  rcases List.eq_nil_or_concat fore with rfl | ⟨left, pred, rfl⟩
  · have adjoins := List.isChain_pair.mp front
    exact ⟨[], none, rfl, rfl, adjoins.prevAllocated, nofun⟩
  · rw [List.concat_eq_append] at *
    have isLast : (Entry.prologue :: left ++ [pred]).getLast? = some pred := List.getLast?_concat
    have adjoins : Adjoins pred entry :=
      (List.isChain_append.mp front).2.2 pred isLast entry rfl
    -- Only a free predecessor is taken along.
    by_cases free : pred.IsFree
    · refine ⟨left, some pred, rfl, ?_, adjoins.prevAllocated.trans free, ?_⟩
      · have taken : pred.header.allocated = false := free
        simp [lastFree, Option.filter, taken]
      rintro _ ⟨⟩
      exact ⟨free, adjoins.place.symm, adjoins.prevMinimal⟩
    · have taken : pred.header.allocated = true := eq_true_of_ne_false free
      exact ⟨left ++ [pred], none, by simp, by simp [lastFree, Option.filter, taken],
        adjoins.prevAllocated.trans taken, nofun⟩

/-- The first of the blocks behind an entry is free or it is not; the epilogue is not. -/
theorem exists_behind {aft : List Entry} {final : Entry}
    (back : (aft ++ [final]).IsChain Adjoins) (closed : ¬final.IsFree) :
    ∃ (behind : Option Entry) (tail : List Entry) (next : Entry) (right : List Entry),
      aft = behind.toList ++ tail ∧ behind = firstFree aft ∧ tail ++ [final] = next :: right
        ∧ next.header.allocated = true
        ∧ (∀ succ ∈ behind, succ.IsFree ∧ succ.stop = next.offset) := by
  cases aft with
  | nil => exact ⟨none, [], final, [], rfl, rfl, rfl, eq_true_of_ne_false closed, nofun⟩
  | cons first more =>
    by_cases free : first.IsFree
    · obtain ⟨next, right, rest⟩ : ∃ next right, more ++ [final] = next :: right :=
        List.exists_cons_of_ne_nil (by simp)
      rw [List.cons_append, rest] at back
      have adjoins := (List.isChain_cons_cons.mp back).1
      have taken : first.header.allocated = false := free
      have found : firstFree (first :: more) = some first := by
        simp [firstFree, Option.filter, taken]
      refine ⟨some first, more, next, right, rfl, found.symm, rest, ?_, ?_⟩
      · exact eq_true_of_ne_false (adjoins.separated free)
      · rintro _ ⟨⟩
        exact ⟨free, adjoins.place.symm⟩
    · have taken : first.header.allocated = true := eq_true_of_ne_false free
      have missing : firstFree (first :: more) = none := by simp [firstFree, Option.filter, taken]
      exact ⟨none, first :: more, first, more ++ [final], rfl, missing.symm, rfl, taken, nofun⟩

/-- A free block in the place of an entry of a chain has its surroundings there. -/
theorem exists_joint {fore aft : List Entry} {entry final : Entry}
    (front : (Entry.prologue :: fore ++ [entry]).IsChain Adjoins)
    (back : (aft ++ [final]).IsChain Adjoins) (closed : ¬final.IsFree) (free : block.IsFree)
    (place : block.offset = entry.offset)
    (prevAllocated : block.header.prevAllocated = entry.header.prevAllocated)
    (prevMinimal : block.header.prevMinimal = entry.header.prevMinimal)
    (meets : ∀ first ∈ (aft ++ [final]).head?, block.stop = first.offset) :
    ∃ (left : List Entry) (before behind : Option Entry) (tail : List Entry) (next : Entry)
      (right : List Entry), fore = left ++ before.toList ∧ aft = behind.toList ++ tail
        ∧ before = lastFree fore ∧ behind = firstFree aft ∧ tail ++ [final] = next :: right
        ∧ Joint before block behind next := by
  obtain ⟨left, before, foreEq, last, flag, beforeFree⟩ := exists_before front
  obtain ⟨behind, tail, next, right, aftEq, first, tailEq, taken, behindFree⟩ :=
    exists_behind back closed
  refine ⟨left, before, behind, tail, next, right, foreEq, aftEq, last, first, tailEq, free,
    prevAllocated.trans flag, ?_, behindFree, ?_, taken⟩
  · intro pred member
    obtain ⟨predFree, stop, minimal⟩ := beforeFree pred member
    exact ⟨predFree, stop.trans place.symm, prevMinimal.trans minimal⟩
  · apply meets
    rw [aftEq, List.append_assoc, tailEq]
    cases behind <;> simp

theorem firstFree_concat {aft : List Entry} {final : Entry} (closed : ¬final.IsFree) :
    firstFree (aft ++ [final]) = firstFree aft := by
  have taken : final.header.allocated = true := eq_true_of_ne_false closed
  cases aft <;> simp [firstFree, Option.filter, taken]

/-- The row in which a free block, with the blocks before it and the blocks from it to the epilogue,
has been joined with its free neighbours. The block behind them records it. -/
def Joined (fore : List Entry) (block : Entry) (aft row : List Entry) : Prop :=
  ∃ (left : List Entry) (before behind : Option Entry) (next : Entry) (right : List Entry),
    fore = left ++ before.toList ∧ before = lastFree fore
      ∧ aft = behind.toList ++ next :: right ∧ behind = firstFree aft
      ∧ Joint before block behind next
      ∧ row = left ++ merged before block next ::
        next.recording false ((merged before block next).size == 16) :: right

/-- Recording something in the first of some blocks leaves the others and the epilogue alone. -/
theorem exists_recorded {tail : List Entry} {final : Entry} (prevAllocated prevMinimal : Bool)
    (split : tail ++ [final] = next :: right) :
    ∃ (others : List Entry) (last : Entry),
      next.recording prevAllocated prevMinimal :: right = others ++ [last]
        ∧ last.offset = final.offset ∧ last.header.isSentinel = final.header.isSentinel
        ∧ (∀ offset size, Held others offset size ↔ Held tail offset size)
        ∧ ((∀ entry ∈ tail, entry.header.reserved = false) →
          ∀ entry ∈ others, entry.header.reserved = false) := by
  cases tail with
  | nil =>
    obtain ⟨rfl, rfl⟩ := List.cons.inj split
    exact ⟨[], final.recording prevAllocated prevMinimal, rfl, rfl, rfl, fun _ _ => Iff.rfl, nofun⟩
  | cons first more =>
    obtain ⟨rfl, rfl⟩ := List.cons.inj split
    refine ⟨first.recording prevAllocated prevMinimal :: more, final, rfl, rfl, rfl, ?_, ?_⟩
    · intro offset size
      rw [held_cons, held_cons]
      rfl
    · rintro clean entry (_ | ⟨_, later⟩)
      · exact clean first List.mem_cons_self
      · exact clean entry (List.mem_cons_of_mem _ later)

end BoundaryTag
