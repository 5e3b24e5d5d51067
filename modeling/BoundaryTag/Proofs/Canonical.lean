import BoundaryTag.Proofs.Blocks
import BoundaryTag.Proofs.Runs

/-!
# The canonical layout

What lies between two allocated blocks is one free block or nothing, and a header repeats what is
known from the block before it. So the allocated blocks and the break determine all blocks, and with
them what each free list holds, whatever happened before. In which order some blocks were released
makes no difference, then, and a release undoes an allocation.
-/
namespace BoundaryTag

open Validator (Entry)

/-! ## A stretch of blocks -/

/-- Some blocks continue a chain from a block on, up to a given place. -/
inductive Fills : Entry → List Entry → Nat → Prop
  | nothing (first : Entry) : Fills first [] first.stop
  | block {first entry : Entry} {rest : List Entry} {stop : Nat} (adjoins : Adjoins first entry)
      (real : 16 ≤ entry.size) (clean : entry.header.reserved = false)
      (tail : Fills entry rest stop) : Fills first (entry :: rest) stop

theorem fills_of_chain (blocks : List Entry) (first last : Entry)
    (chain : (first :: blocks ++ [last]).IsChain Adjoins) (real : ∀ entry ∈ blocks, 16 ≤ entry.size)
    (clean : ∀ entry ∈ blocks, entry.header.reserved = false) :
    Fills first blocks last.offset := by
  induction blocks generalizing first with
  | nil =>
    rw [(List.isChain_pair.mp chain).place]
    exact .nothing first
  | cons entry rest ih =>
    obtain ⟨adjoins, chain⟩ := List.isChain_cons_cons.mp chain
    simp only [List.forall_mem_cons] at real clean
    exact .block adjoins real.1 clean.1 (ih entry chain real.2 clean.2)

theorem Tiling.fills {arena : Arena} {blocks : List Entry} (tiling : Tiling arena blocks) :
    Fills Entry.prologue blocks (arena.hi - 8) :=
  fills_of_chain blocks Entry.prologue arena.epilogue tiling.chain tiling.real tiling.reserved

/-- A free block holds nothing, and what is behind it holds the rest. -/
theorem held_cons_of_free {entry : Entry} {rest : List Entry} (free : entry.IsFree)
    (offset size : Nat) : Held (entry :: rest) offset size ↔ Held rest offset size := by
  rw [held_cons, or_iff_right]
  exact fun taken => Entry.not_free_of_allocated taken.1 free

/-- Two blocks behind the same block are equal if they end at the same place and are both free or
both allocated. -/
theorem Adjoins.eq {first entry other : Entry} (left : Adjoins first entry)
    (right : Adjoins first other) (clean : entry.header.reserved = false)
    (otherClean : other.header.reserved = false)
    (allocated : entry.header.allocated = other.header.allocated)
    (size : entry.size = other.size) : entry = other := by
  have place := left.place.trans right.place.symm
  have prevAllocated := left.prevAllocated.trans right.prevAllocated.symm
  have prevMinimal := left.prevMinimal.trans right.prevMinimal.symm
  have reserved := clean.trans otherClean.symm
  have units : entry.header.units = other.header.units := by
    simp only [Entry.size, Header.size, alignment_eq] at size
    omega
  cases entry with
  | mk offset header =>
    cases other with
    | mk otherOffset otherHeader =>
      cases header
      cases otherHeader
      simp_all

namespace Fills

variable {first entry other : Entry} {rest others : List Entry} {stop : Nat}

theorem ahead (fills : Fills first rest stop) :
    first.stop ≤ stop ∧ ∀ entry ∈ rest, first.stop ≤ entry.offset := by
  induction fills with
  | nothing first => simp
  | @block first entry rest stop adjoins real clean tail ih =>
    have place := adjoins.place
    simp only [Entry.stop, List.forall_mem_cons] at *
    refine ⟨by omega, by omega, fun later member => ?_⟩
    have := ih.2 later member
    omega

theorem held_ahead {offset size : Nat} (fills : Fills first rest stop)
    (held : Held rest offset size) : first.stop ≤ offset := by
  obtain ⟨entry, member, -, rfl, -⟩ := held
  exact fills.ahead.2 entry member

/-- What is held behind a block is what is held elsewhere than at that block. -/
theorem held_tail (fills : Fills entry rest stop) (real : 16 ≤ entry.size) (offset size : Nat) :
    Held rest offset size ↔ Held (entry :: rest) offset size ∧ offset ≠ entry.offset := by
  rw [held_cons]
  constructor
  · intro held
    have ahead := fills.held_ahead held
    unfold Entry.stop at ahead
    exact ⟨.inr held, by omega⟩
  · rintro ⟨⟨-, same, -⟩ | held, different⟩
    · exact absurd same.symm different
    · exact held

/-- A free block is followed by an allocated one or by nothing. -/
theorem held_of_free (fills : Fills first rest stop) (free : first.IsFree) :
    first.stop = stop ∨ ∃ size, Held rest first.stop size := by
  cases fills with
  | nothing => exact .inl rfl
  | @block _ entry rest _ adjoins =>
    have taken : entry.header.allocated = true := by
      simpa [Entry.IsFree] using adjoins.separated free
    exact .inr ⟨entry.size, entry, List.mem_cons_self, taken, adjoins.place, rfl⟩

/-- A free block reaches up to the next block that is held anywhere. -/
theorem stop_le (fills : Fills entry rest stop) (also : Fills other others stop)
    (free : entry.IsFree)
    (held : ∀ offset size, Held rest offset size → Held others offset size) :
    other.stop ≤ entry.stop := by
  rcases fills.held_of_free free with ended | ⟨size, next⟩
  · rw [ended]
    exact also.ahead.1
  · exact also.held_ahead (held _ _ next)

/-- A block is what it is held as. -/
theorem head_of_held {size : Nat} (fills : Fills entry rest stop) (real : 16 ≤ entry.size)
    (held : Held (entry :: rest) entry.offset size) :
    entry.header.allocated = true ∧ entry.size = size := by
  rcases (held_cons entry rest entry.offset size).mp held with ⟨taken, -, width⟩ | later
  · exact ⟨taken, width⟩
  · exact absurd rfl ((fills.held_tail real _ _).mp later).2

/-- Two stretches from the same block to the same place are equal if, however far they have been
compared, they go on with the same block. The induction is on the blocks of the one, next to which
those of the other are taken off. -/
theorem eq_of_heads (along : List Entry → List Entry → Prop) {blocks entries : List Entry}
    (heads : ∀ {first entry other : Entry} {rest others : List Entry},
      Fills first (entry :: rest) stop → Fills first (other :: others) stop →
      along (entry :: rest) (other :: others) → entry = other ∧ along rest others)
    (left : Fills first blocks stop) (right : Fills first entries stop)
    (both : along blocks entries) : blocks = entries := by
  -- A stretch that has a block ends later than it begins, so both stretches end together.
  have short {first entry : Entry} {rest : List Entry} {stop : Nat}
      (fills : Fills first (entry :: rest) stop) : first.stop < stop := by
    cases fills with
    | block adjoins real _ tail =>
      have ahead := tail.ahead.1
      have place := adjoins.place
      unfold Entry.stop at *
      omega
  induction left generalizing entries with
  | nothing first =>
    cases entries with
    | nil => rfl
    | cons other others => exact absurd (short right) (Nat.lt_irrefl _)
  | @block first entry rest stop adjoins real clean tail ih =>
    have whole := Fills.block adjoins real clean tail
    cases right with
    | nothing => exact absurd (short whole) (Nat.lt_irrefl _)
    | @block _ other others _ otherAdjoins otherReal otherClean otherTail =>
      obtain ⟨rfl, further⟩ :=
        heads whole (.block otherAdjoins otherReal otherClean otherTail) both
      rw [ih heads otherTail further]

/-- Two stretches that begin at the same block, end at the same place and hold the same blocks begin
with the same block. -/
theorem head_eq (left : Fills first (entry :: rest) stop)
    (right : Fills first (other :: others) stop)
    (held : ∀ offset size, Held (entry :: rest) offset size ↔ Held (other :: others) offset size) :
    entry = other := by
  cases left with
  | block adjoins real clean fills =>
  cases right with
  | block otherAdjoins otherReal otherClean also =>
  have place : entry.offset = other.offset := adjoins.place.trans otherAdjoins.place.symm
  -- If one of the two is allocated it is held, and the other stretch holds it too.
  by_cases taken : entry.header.allocated = true
  · have here := (held entry.offset entry.size).mp ⟨entry, by simp, taken, rfl, rfl⟩
    rw [place] at here
    obtain ⟨allocated, size⟩ := also.head_of_held otherReal here
    exact adjoins.eq otherAdjoins clean otherClean (taken.trans allocated.symm) size.symm
  by_cases otherTaken : other.header.allocated = true
  · have here := (held other.offset other.size).mpr ⟨other, by simp, otherTaken, rfl, rfl⟩
    rw [← place] at here
    exact absurd (fills.head_of_held real here).1 taken
  have free : entry.IsFree := eq_false_of_ne_true taken
  have otherFree : other.IsFree := eq_false_of_ne_true otherTaken
  -- Both are free, and both reach up to the first block that is held.
  simp only [held_cons_of_free free, held_cons_of_free otherFree] at held
  have low := fills.stop_le also free fun offset size => (held offset size).mp
  have high := also.stop_le fills otherFree fun offset size => (held offset size).mpr
  have size : entry.size = other.size := by
    unfold Entry.stop at low high
    omega
  exact adjoins.eq otherAdjoins clean otherClean (free.trans otherFree.symm) size

/-- The blocks of a stretch are determined by those that are held. -/
theorem unique {blocks entries : List Entry} (left : Fills first blocks stop)
    (right : Fills first entries stop)
    (held : ∀ offset size, Held blocks offset size ↔ Held entries offset size) :
    blocks = entries := by
  refine eq_of_heads
    (fun row other => ∀ offset size, Held row offset size ↔ Held other offset size)
    (fun {first entry other rest others} left right held => ?_) left right held
  obtain rfl := head_eq left right held
  refine ⟨rfl, fun offset size => ?_⟩
  cases left with
  | block _ real _ fills =>
  cases right with
  | block _ _ _ also =>
  rw [fills.held_tail real, also.held_tail real, held]

/-- The blocks of a stretch are determined by their headers. -/
theorem unique_of_words {arena : Arena} {blocks entries : List Entry}
    (left : Fills first blocks stop) (right : Fills first entries stop)
    (words : ∀ entry ∈ blocks, arena.word entry.offset = entry.header.toWord)
    (also : ∀ entry ∈ entries, arena.word entry.offset = entry.header.toWord) :
    blocks = entries := by
  refine eq_of_heads
    (fun row other => ∀ entry ∈ row ++ other, arena.word entry.offset = entry.header.toWord)
    (fun {first entry other rest others} left right same => ?_) left right
    (List.forall_mem_append.mpr ⟨words, also⟩)
  simp only [List.forall_mem_append, List.forall_mem_cons] at same
  -- Both first blocks stand at the same place, so they have the same header word.
  have place : entry.offset = other.offset := by
    cases left with
    | block adjoins =>
    cases right with
    | block otherAdjoins => exact adjoins.place.trans otherAdjoins.place.symm
  have header : entry.header = other.header := by
    rw [← Header.toWord_inj, ← same.1.1, ← same.2.1, place]
  refine ⟨?_, List.forall_mem_append.mpr ⟨same.1.2, same.2.2⟩⟩
  cases entry
  cases other
  simp_all

/-- Where nothing is held there is at most one block. -/
theorem eq_of_unheld (fills : Fills first rest stop)
    (none : ∀ offset size, ¬Held rest offset size) :
    (rest = [] ∧ first.stop = stop) ∨ ∃ entry, rest = [entry] ∧ Adjoins first entry
      ∧ entry.IsFree ∧ entry.stop = stop := by
  cases fills with
  | nothing => exact .inl ⟨rfl, rfl⟩
  | @block _ entry rest _ adjoins real clean tail =>
    have free : entry.IsFree := by
      by_contra taken
      have allocated : entry.header.allocated = true := by simpa [Entry.IsFree] using taken
      exact none _ _ ⟨entry, by simp, allocated, rfl, rfl⟩
    cases tail with
    | nothing => exact .inr ⟨entry, rfl, adjoins, free, rfl⟩
    | @block _ next rest _ later =>
      have allocated : next.header.allocated = true := by
        simpa [Entry.IsFree] using later.separated free
      exact absurd ⟨next, by simp, allocated, rfl, rfl⟩ (none next.offset next.size)

end Fills

/-! ## Heaps with the same allocated blocks -/

namespace Layout.Describes

variable {arena after : Arena} {lists edited : FreeLists} {layout others : Layout}

theorem blocks_unique (left : layout.Describes arena lists) (right : others.Describes after edited)
    (top : after.hi = arena.hi)
    (held : ∀ offset size, Held layout.blocks offset size ↔ Held others.blocks offset size) :
    layout.blocks = others.blocks := by
  have fills := right.tiling.fills
  rw [top] at fills
  exact left.tiling.fills.unique fills held

/-- The same blocks are on the same lists, if not in the same order. -/
theorem chains_perm (left : layout.Describes arena lists) (right : others.Describes after edited)
    (blocks : layout.blocks = others.blocks) (bucket : Bucket) :
    (layout.chains bucket).Perm (others.chains bucket) := by
  have leftNodup := left.listing.nodup bucket
  have rightNodup := right.listing.nodup bucket
  refine (List.perm_ext_iff_of_nodup leftNodup rightNodup).mpr fun offset => ?_
  rw [left.listing.members, right.listing.members, blocks]

end Layout.Describes

/-- What the header of a block says, and where it stands. -/
structure Outline where
  offset : Nat
  size : Nat
  allocated : Bool
  prevAllocated : Bool
  prevMinimal : Bool
deriving DecidableEq, Repr

def BlockView.outline (view : BlockView) : Outline where
  offset := view.block.offset
  size := view.size
  allocated := !view.isFree
  prevAllocated := view.prevAllocated
  prevMinimal := view.prevMinimal

def Validator.Entry.outline (entry : Entry) : Outline where
  offset := entry.offset
  size := entry.size
  allocated := entry.header.allocated
  prevAllocated := entry.header.prevAllocated
  prevMinimal := entry.header.prevMinimal

@[simp] theorem Validator.Entry.outline_view (entry : Entry) (arena : Arena) :
    (entry.view arena).outline = entry.outline := by
  have state := entry.isFree_view arena
  unfold IsFree at state
  have allocated : (!(entry.view arena).isFree) = entry.header.allocated := by
    cases taken : entry.header.allocated <;> simp_all
  simp only [BlockView.outline, outline, allocated]
  rfl

namespace Heap

/-- A block of this size is allocated for the payload at an address. -/
def Allocates (heap : Heap) (address : Address) (size : Nat) : Prop :=
  ∃ views, heap.blocks = .ok views ∧ ∃ view ∈ views,
    view.outline.allocated = true ∧ address = ⟨view.outline.offset + 8⟩ ∧ view.outline.size = size

/-- Two heaps consist of the same blocks, and each class lists the same blocks in both. -/
structure SameShape (left right : Heap) : Prop where
  blocks : ∃ views others, left.blocks = .ok views ∧ right.blocks = .ok others
    ∧ views.map BlockView.outline = others.map BlockView.outline
  lists : ∀ bucket, ∃ members others, left.lists.members left.arena bucket = .ok members
    ∧ right.lists.members right.arena bucket = .ok others ∧ members.Perm others

variable {heap left right : Heap} {layout others : Layout}

theorem allocates_iff (describes : layout.Describes heap.arena heap.lists) (offset size : Nat) :
    heap.Allocates ⟨offset + 8⟩ size ↔ Held layout.blocks offset size := by
  constructor
  · rintro ⟨views, walk, view, member, allocated, place, rfl⟩
    rw [blocks_of_describes describes] at walk
    cases walk
    obtain ⟨entry, there, rfl⟩ := List.mem_map.mp member
    simp only [Entry.outline_view, Address.mk.injEq, Nat.add_right_cancel_iff] at *
    exact ⟨entry, there, allocated, place.symm, rfl⟩
  · rintro ⟨entry, there, allocated, rfl, rfl⟩
    exact ⟨_, blocks_of_describes describes, _, List.mem_map_of_mem there, by simpa, by simp; rfl,
      by simp; rfl⟩

theorem sameShape_of_held (describes : layout.Describes left.arena left.lists)
    (described : others.Describes right.arena right.lists) (top : right.arena.hi = left.arena.hi)
    (held : ∀ offset size, Held layout.blocks offset size ↔ Held others.blocks offset size) :
    SameShape left right := by
  have same := describes.blocks_unique described top held
  constructor
  · refine ⟨_, _, blocks_of_describes describes, blocks_of_describes described, ?_⟩
    simp [Function.comp_def, same]
  · intro bucket
    exact ⟨_, _, describes.members bucket, described.members bucket,
      (describes.chains_perm described same bucket).map _⟩

/-! ## Releases in any order -/

/-- Releases some payloads one after the other. -/
def releaseAll (addresses : List Address) : HeapM Unit :=
  addresses.forM release

theorem release_owned {address : Address} (describes : layout.Describes heap.arena heap.lists)
    (owned : Owned (Held layout.blocks) address) :
    Returns (release address) heap fun _ after => ∃ others : Layout,
      others.Describes after.arena after.lists ∧ after.arena.hi = heap.arena.hi
        ∧ ∀ offset size, Held others.blocks offset size ↔
          Held layout.blocks offset size ∧ ⟨offset + 8⟩ ≠ address := by
  obtain ⟨offset, size, ⟨entry, member, allocated, rfl, rfl⟩, rfl⟩ := owned
  obtain ⟨fore, aft, split⟩ := List.append_of_mem member
  refine (release_returns describes split allocated).mono ?_
  rintro ⟨⟩ after ⟨others, described, held, -, -, frees, -⟩
  refine ⟨others, described, frees.confined.hi, fun offset size => ?_⟩
  simp [held]

/-- What is left after some releases does not depend on their order. -/
theorem releaseAll_returns (addresses : List Address) (nodup : addresses.Nodup)
    (describes : layout.Describes heap.arena heap.lists)
    (owned : ∀ address ∈ addresses, Owned (Held layout.blocks) address) :
    Returns (releaseAll addresses) heap fun _ after => ∃ others : Layout,
      others.Describes after.arena after.lists ∧ after.arena.hi = heap.arena.hi
        ∧ ∀ offset size, Held others.blocks offset size ↔
          Held layout.blocks offset size ∧ ⟨offset + 8⟩ ∉ addresses := by
  induction addresses generalizing heap layout with
  | nil => exact Returns.pure ⟨layout, describes, rfl, by simp⟩
  | cons address rest ih =>
    obtain ⟨fresh, nodup⟩ := List.nodup_cons.mp nodup
    simp only [List.forall_mem_cons] at owned
    refine (release_owned describes owned.1).bind ?_
    rintro ⟨⟩ middle ⟨others, described, same, held⟩
    -- The other payloads are still there to be released.
    have kept (other : Address) (member : other ∈ rest) : Owned (Held others.blocks) other := by
      obtain ⟨offset, size, holds, rfl⟩ := owned.2 other member
      refine ⟨offset, size, (held offset size).mpr ⟨holds, ?_⟩, rfl⟩
      rintro rfl
      exact fresh member
    refine (ih nodup described kept).mono ?_
    rintro ⟨⟩ after ⟨last, whole, top, left⟩
    refine ⟨last, whole, top.trans same, fun offset size => ?_⟩
    rw [left, held, List.mem_cons, not_or, and_assoc]

/-- A heap that holds nothing is one free block between the sentinels. -/
theorem blocks_of_unheld (describes : layout.Describes heap.arena heap.lists)
    (room : 32 ≤ heap.arena.hi) (none : ∀ offset size, ¬Held layout.blocks offset size) :
    ∃ view, heap.blocks = .ok [view]
      ∧ view.outline = ⟨8, heap.arena.hi - 16, false, true, false⟩ := by
  have start : Entry.prologue.stop = 8 := rfl
  rcases describes.tiling.fills.eq_of_unheld none with ⟨-, ended⟩ | ⟨entry, row, adjoins, free, top⟩
  · omega
  · refine ⟨entry.view heap.arena, by rw [blocks_of_describes describes, row]; rfl, ?_⟩
    obtain ⟨place, prevAllocated, prevMinimal, -⟩ := adjoins
    have size : entry.size = heap.arena.hi - 16 := by
      unfold Entry.stop at top
      omega
    rw [Entry.outline_view, Entry.outline, size, place, free, prevAllocated, prevMinimal]
    rfl

end Heap

/-- What follows from the blocks of a reachable heap being determined by the allocated ones. -/
structure CanonicalLayout (heap : Heap) (live : List Address) : Prop where
  /-- A heap of the same size with the same allocated blocks has the same shape. -/
  unique : ∀ (other : Heap) (also : List Address), Reachable other also →
    other.arena.hi = heap.arena.hi →
    (∀ address size, heap.Allocates address size ↔ other.Allocates address size) →
    heap.SameShape other
  /-- The order of releases makes no difference. -/
  ordered : ∀ first second : List Address, first.Nodup → (∀ address ∈ first, address ∈ live) →
    first.Perm second → ∃ left right, Heap.releaseAll first heap = .ok () left
      ∧ Heap.releaseAll second heap = .ok () right ∧ left.SameShape right
  /-- When everything is released all space is one free block. -/
  emptied : ∀ order : List Address, order.Perm live → ∃ after view,
    Heap.releaseAll order heap = .ok () after ∧ after.blocks = .ok [view]
      ∧ view.outline = ⟨8, heap.arena.hi - 16, false, true, false⟩
  /-- A release undoes an allocation that has not made the arena grow. -/
  undone : ∀ (size : Nat) (address : Address) (middle : Heap),
    Heap.allocate size heap = .ok (.ok address) middle → middle.arena.hi = heap.arena.hi →
    ∃ after, Heap.release address middle = .ok () after ∧ heap.SameShape after

section Reached

variable {heap : Heap} {live : List Address} {layout : Layout}

theorem undone_of_run {middle : Heap} {size : Nat} {address : Address} (sound : Sound heap live)
    (run : Heap.allocate size heap = .ok (.ok address) middle)
    (same : middle.arena.hi = heap.arena.hi) :
    ∃ after, Heap.release address middle = .ok () after ∧ heap.SameShape after := by
  obtain ⟨roomy, -, layout, describes, -⟩ := sound
  rcases Heap.allocate_hands describes roomy size with returns | ⟨fault, stops, -⟩
  case inr => cases run.symm.trans stops
  cases returns.of_run run with
  | nothing _ unchanged =>
    refine ⟨middle, rfl, Heap.sameShape_of_held describes ?_ same fun _ _ => Iff.rfl⟩
    rw [unchanged.arena, unchanged.lists]
    exact describes
  | block start _ fresh becomes =>
    obtain ⟨others, described, holds⟩ := becomes.layout
    have owned : Owned (Held others.blocks) ⟨start + 8⟩ :=
      ⟨start, _, (holds start _).mpr (.inr ⟨rfl, rfl⟩), rfl⟩
    obtain ⟨⟨⟩, after, released, last, whole, top, left⟩ := Heap.release_owned described owned
    refine ⟨after, released, Heap.sameShape_of_held describes whole (top.trans same) ?_⟩
    -- The block that was gained is given up again, and it was not among the others.
    intro place width
    simp only [left, holds, ne_eq, Address.mk.injEq, Nat.add_right_cancel_iff]
    constructor
    · intro held
      refine ⟨.inl held, ?_⟩
      rintro rfl
      exact fresh width held
    · rintro ⟨held | ⟨rfl, -⟩, different⟩
      · exact held
      · exact absurd rfl different

/-- The allocated blocks of a reachable heap determine its shape, so the shape does not depend on
how the heap came to hold them. -/
theorem layout_canonical (reachable : Reachable heap live) : CanonicalLayout heap live := by
  have sound := reachable.sound
  have floor := reachable.floor
  obtain ⟨roomy, nodup, layout, describes, members⟩ := sound
  -- What is left after releases depends on which addresses were released only.
  have releases (order : List Address) (distinct : order.Nodup)
      (subset : ∀ address ∈ order, address ∈ live) :=
    Heap.releaseAll_returns order distinct describes fun address member =>
      (members address).mp (subset address member)
  constructor
  case unique =>
    intro other also reached top same
    obtain ⟨-, -, others, described, -⟩ := reached.sound
    refine Heap.sameShape_of_held describes described top fun offset size => ?_
    rw [← Heap.allocates_iff describes, ← Heap.allocates_iff described, same]
  case ordered =>
    intro first second distinct subset perm
    obtain ⟨⟨⟩, left, run, others, described, top, held⟩ := releases first distinct subset
    obtain ⟨⟨⟩, right, rerun, final, whole, also, remaining⟩ :=
      releases second (perm.nodup distinct) fun address member => subset _ (perm.mem_iff.mpr member)
    refine ⟨left, right, run, rerun,
      Heap.sameShape_of_held described whole (also.trans top.symm) fun offset size => ?_⟩
    rw [held, remaining, perm.mem_iff]
  case emptied =>
    intro order perm
    obtain ⟨⟨⟩, after, run, others, described, top, held⟩ :=
      releases order (perm.nodup_iff.mpr nodup) fun address member => perm.mem_iff.mp member
    have real := roomy.real
    obtain ⟨view, walk, outline⟩ := Heap.blocks_of_unheld described (by omega) fun offset size => by
      rw [held, perm.mem_iff, members]
      exact fun ⟨holds, absent⟩ => absent ⟨offset, size, holds, rfl⟩
    exact ⟨after, view, run, walk, by rw [outline, top]⟩
  case undone =>
    intro size address middle run same
    exact undone_of_run reachable.sound run same

/-- Two payloads may be released in either order. -/
theorem layout_canonical_of_two : ∃ (heap left right : Heap) (first second : Address),
    Reachable heap [second, first] ∧ Heap.releaseAll [second, first] heap = .ok () left
      ∧ Heap.releaseAll [first, second] heap = .ok () right ∧ left.SameShape right := by
  obtain ⟨-, -, heap, first, second, -, -, -, -, -, reachable⟩ := exists_run
  obtain ⟨left, right, run, rerun, same⟩ := (layout_canonical reachable).ordered [second, first]
    [first, second] reachable.sound.nodup (fun _ member => member) (List.Perm.swap first second [])
  exact ⟨heap, left, right, first, second, reachable, run, rerun, same⟩

end Reached

end BoundaryTag
