import BoundaryTag.Proofs.Relinking
import BoundaryTag.Proofs.Tags
import Mathlib.Data.List.Chain
import Mathlib.Data.List.Nodup

/-!
# Layouts

The invariant of a heap, stated without reference to how it is checked. `Tiling` says that a
sequence of blocks fills the arena between the two sentinels, that each block tells the truth about
the one before it, and that no two free blocks are neighbours. `Listing` says that the free blocks,
and no others, are on the lists of their classes, each once. A layout describes a heap if both hold.
-/
namespace BoundaryTag

open Validator (Entry)

/-- The word at offset 0 is the footer of an allocated block of size zero before the first block. A
block of size zero with its footer there would start and end at offset 8. -/
def Validator.Entry.prologue : Entry := make 8 0 true true false

/-- The last word of an arena is the header of an allocated block of size zero. -/
def Arena.epilogue (arena : Arena) : Entry :=
  ⟨arena.hi - 8, Header.ofWord (arena.word (arena.hi - 8))⟩

/-- A block starts where the block before it ends, knows whether that one is allocated and whether
it is minimal, and is not free if that one is. -/
structure Adjoins (left right : Entry) : Prop where
  place : right.offset = left.stop
  prevAllocated : right.header.prevAllocated = left.header.allocated
  prevMinimal : right.header.prevMinimal = (left.size == 16)
  separated : left.IsFree → ¬right.IsFree

/-- The blocks fill an arena from the prologue to the epilogue. -/
structure Tiling (arena : Arena) (blocks : List Entry) : Prop where
  room : 16 ≤ arena.hi
  prologue : (Header.ofWord (arena.word 0)).isSentinel = true
  epilogue : arena.epilogue.header.isSentinel = true
  chain : (Entry.prologue :: blocks ++ [arena.epilogue]).IsChain Adjoins
  real : ∀ entry ∈ blocks, 16 ≤ entry.size
  reserved : ∀ entry ∈ blocks, entry.header.reserved = false
  stored : ∀ entry ∈ blocks, entry.Stored arena

/-- The heads and the links spell out chains that hold each free block once, in its class. -/
structure Listing (arena : Arena) (lists : FreeLists) (blocks : List Entry) (chains : Chains) :
    Prop where
  heads : ∀ bucket, lists.head bucket = (chains bucket).head?.map Block.mk
  links : ∀ bucket, arena.Linked (FreeLists.isTwoWay bucket) 0 (chains bucket) 0
  nodup : ∀ bucket, (chains bucket).Nodup
  members : ∀ bucket offset, offset ∈ chains bucket ↔
    ∃ entry ∈ blocks, entry.IsFree ∧ entry.offset = offset ∧ Bucket.classify entry.size = bucket

/-- What an arena and the heads of its lists hold. -/
structure Layout where
  /-- The blocks in address order. -/
  blocks : List Entry
  /-- The free blocks of each class, head first. -/
  chains : Chains

/-- The heap is cut and listed as the layout says. -/
structure Layout.Describes (layout : Layout) (arena : Arena) (lists : FreeLists) : Prop where
  tiling : Tiling arena layout.blocks
  listing : Listing arena lists layout.blocks layout.chains

/-- The invariant of a heap: some layout describes it. -/
def WellFormed (arena : Arena) (lists : FreeLists) : Prop :=
  ∃ layout : Layout, layout.Describes arena lists

/-- One of some blocks is allocated and has this offset and this size. -/
def Held (entries : List Entry) (offset size : Nat) : Prop :=
  ∃ entry ∈ entries, entry.header.allocated = true ∧ entry.offset = offset ∧ entry.size = size

theorem held_nil (offset size : Nat) : ¬Held [] offset size := nofun

theorem held_cons (entry : Entry) (rest : List Entry) (offset size : Nat) :
    Held (entry :: rest) offset size ↔
      (entry.header.allocated = true ∧ entry.offset = offset ∧ entry.size = size)
        ∨ Held rest offset size := by
  simp [Held]

theorem held_append (left right : List Entry) (offset size : Nat) :
    Held (left ++ right) offset size ↔ Held left offset size ∨ Held right offset size := by
  simp [Held, or_and_right, exists_or]

/-- Free blocks hold nothing. -/
theorem not_held_of_free {entries : List Entry} (free : ∀ entry ∈ entries, entry.IsFree)
    (offset size : Nat) : ¬Held entries offset size := by
  rintro ⟨entry, member, allocated, -⟩
  exact Entry.not_free_of_allocated allocated (free entry member)

theorem held_append_cons_of_free {left right : List Entry} {entry : Entry} (free : entry.IsFree)
    (offset size : Nat) : Held (left ++ entry :: right) offset size ↔
      Held left offset size ∨ Held right offset size := by
  have none : ¬Held [entry] offset size := not_held_of_free (by simpa using free) offset size
  rw [← List.singleton_append, held_append, held_append, or_iff_right none]

/-! ## Blocks in address order -/

namespace Validator.Entry

/-- A block lies before another one. -/
def Before (left right : Entry) : Prop := left.stop ≤ right.offset

/-- Two blocks do not overlap. -/
def Clear (left right : Entry) : Prop := left.Before right ∨ right.Before left

instance : Trans Before Before Before where
  trans {left middle right} first second := by
    have width : middle.offset ≤ middle.stop := Nat.le_add_right _ _
    exact Nat.le_trans first (Nat.le_trans width second)

instance : Std.Symm Clear where
  symm _ _ clear := clear.symm

end Validator.Entry

theorem before_of_chain (tiles : List Entry) (chain : tiles.IsChain Adjoins) :
    tiles.Pairwise Entry.Before :=
  have steps : tiles.IsChain Entry.Before :=
    chain.imp fun _ _ adjoins => Nat.le_of_eq adjoins.place.symm
  steps.pairwise

theorem clear_of_before (tiles : List Entry) (ordered : tiles.Pairwise Entry.Before)
    {left right : Entry} (here : left ∈ tiles) (there : right ∈ tiles) (different : left ≠ right) :
    left.Clear right :=
  (ordered.imp fun first => .inl first : tiles.Pairwise Entry.Clear).forall here there different

/-- In a chain each entry lies one word below a multiple of 16, as the first one does. -/
theorem offset_mod_of_chain (tiles : List Entry) (first : Entry)
    (chain : (first :: tiles).IsChain Adjoins) (aligned : first.offset % 16 = 8) :
    ∀ entry ∈ tiles, entry.offset % 16 = 8 := by
  induction tiles generalizing first with
  | nil => nofun
  | cons second rest ih =>
    obtain ⟨adjoins, chain⟩ := List.isChain_cons_cons.mp chain
    have width := first.size_mod
    have place := adjoins.place
    have second_aligned : second.offset % 16 = 8 := by
      rw [place, Entry.stop]
      omega
    intro entry member
    rcases List.mem_cons.mp member with rfl | later
    · exact second_aligned
    · exact ih second chain second_aligned entry later

namespace Tiling

variable {arena : Arena} {blocks : List Entry} {entry left right : Entry}

theorem ordered (tiling : Tiling arena blocks) :
    (Entry.prologue :: blocks ++ [arena.epilogue]).Pairwise Entry.Before :=
  before_of_chain _ tiling.chain

theorem clear (tiling : Tiling arena blocks) (here : left ∈ blocks) (there : right ∈ blocks)
    (different : left ≠ right) : left.Clear right :=
  clear_of_before _ tiling.ordered (by simp [here]) (by simp [there]) different

/-- Blocks are told apart by where they start. -/
theorem eq_of_offset (tiling : Tiling arena blocks) (here : left ∈ blocks)
    (there : right ∈ blocks) (same : left.offset = right.offset) : left = right := by
  by_contra different
  have clear := tiling.clear here there different
  have leftReal := tiling.real left here
  have rightReal := tiling.real right there
  unfold Entry.Clear Entry.Before Entry.stop at clear
  omega

/-- The chain of blocks falls apart at each block. -/
theorem split {fore aft : List Entry} (tiling : Tiling arena (fore ++ entry :: aft)) :
    (Entry.prologue :: fore ++ [entry]).IsChain Adjoins
      ∧ (entry :: (aft ++ [arena.epilogue])).IsChain Adjoins := by
  have chain := tiling.chain
  have regrouped : Entry.prologue :: (fore ++ entry :: aft) ++ [arena.epilogue]
      = (Entry.prologue :: fore) ++ entry :: (aft ++ [arena.epilogue]) := by simp
  rw [regrouped] at chain
  exact List.isChain_split.mp chain

theorem bounds (tiling : Tiling arena blocks) (member : entry ∈ blocks) :
    8 ≤ entry.offset ∧ entry.stop + 8 ≤ arena.hi := by
  obtain ⟨first, rest⟩ := List.pairwise_cons.mp tiling.ordered
  have low := first entry (List.mem_append_left _ member)
  have high := (List.pairwise_append.mp rest).2.2 entry member arena.epilogue (by simp)
  have room := tiling.room
  have start : Entry.prologue.stop = 8 := rfl
  change Entry.prologue.stop ≤ entry.offset at low
  change entry.stop ≤ arena.hi - 8 at high
  omega

theorem nodup (tiling : Tiling arena blocks) : blocks.Nodup := by
  obtain ⟨blocks, -, -⟩ := List.pairwise_append.mp (List.pairwise_cons.mp tiling.ordered).2
  refine blocks.imp_of_mem fun {left right} here _ before same => ?_
  subst same
  have real := tiling.real left here
  unfold Entry.Before Entry.stop at before
  omega

/-- A row without one of its blocks holds the other ones. -/
theorem held_without {fore aft : List Entry} (tiling : Tiling arena (fore ++ entry :: aft))
    (offset size : Nat) : Held (fore ++ aft) offset size ↔
      Held (fore ++ entry :: aft) offset size ∧ offset ≠ entry.offset := by
  have older : (fore ++ aft).Sublist (fore ++ entry :: aft) := by simp
  constructor
  · rintro ⟨other, there, holds⟩
    refine ⟨⟨other, older.subset there, holds⟩, ?_⟩
    rintro rfl
    have same := tiling.eq_of_offset (older.subset there) (by simp) holds.2.1
    exact (List.nodup_cons.mp (List.nodup_middle.mp tiling.nodup)).1 (same ▸ there)
  · rintro ⟨⟨other, there, holds⟩, different⟩
    refine ⟨other, ?_, holds⟩
    rcases List.mem_append.mp there with here | (_ | ⟨_, here⟩)
    · exact List.mem_append_left _ here
    · exact absurd holds.2.1.symm different
    · exact List.mem_append_right _ here

theorem offset_mod (tiling : Tiling arena blocks) (member : entry ∈ blocks) :
    entry.offset % 16 = 8 :=
  offset_mod_of_chain _ Entry.prologue tiling.chain rfl entry (List.mem_append_left _ member)

theorem sizeAt (tiling : Tiling arena blocks) (member : entry ∈ blocks) :
    arena.sizeAt entry.offset = entry.size := by
  rw [Arena.sizeAt, (tiling.stored entry member).header, Header.ofWord_toWord]
  rfl

end Tiling

end BoundaryTag
