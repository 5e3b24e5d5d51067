import BoundaryTag.Heap.Statistics
import BoundaryTag.Proofs.Dumps
import BoundaryTag.Proofs.Hosting
import BoundaryTag.Proofs.Lockstep
import Mathlib.Data.List.Count
import Mathlib.Data.List.FinRange

/-!
# Two walks and their totals

A walk in address order and a walk along the lists read the same bytes in different ways. In a heap
that keeps its invariant both see the same free blocks, so the totals of the one walk are the totals
of the other, and a dump, which makes both walks, agrees with itself.
-/
namespace BoundaryTag

open Text
open Validator (Entry)

variable {heap : Heap} {live : List Address} {layout : Layout}

/-! ## Sums -/

namespace Statistics

variable (hi : Nat) (views : List BlockView)

/-- Every byte of a block is counted once. -/
theorem bytes_eq : (ofBlocks hi views).allocatedBytes + (ofBlocks hi views).freeBytes =
    (views.map (·.size)).sum := by
  simp only [ofBlocks, total]
  induction views with
  | nil => rfl
  | cons view views ih => cases free : view.isFree <;> simp [free] <;> omega

/-- All of an allocated block but its header can be used. -/
theorem payload_eq (real : ∀ view ∈ views, 8 ≤ view.size) :
    (ofBlocks hi views).payloadBytes + 8 * (ofBlocks hi views).allocatedBlocks =
      (ofBlocks hi views).allocatedBytes := by
  simp only [ofBlocks, total, wordSize_eq]
  induction views with
  | nil => rfl
  | cons view views ih =>
    obtain ⟨first, others⟩ := List.forall_mem_cons.mp real
    have rest := ih others
    cases free : view.isFree <;> simp [free] <;> omega

/-- The largest free block is as large as some free block, unless there is none. -/
theorem largest_spec : (∀ view ∈ views, view.isFree = true →
      view.size ≤ (ofBlocks hi views).largestFree)
    ∧ ((ofBlocks hi views).largestFree ≠ 0 →
      ∃ view ∈ views, view.isFree = true ∧ view.size = (ofBlocks hi views).largestFree) := by
  have bound (view : BlockView) (member : view ∈ views) (free : view.isFree = true) :
      view.size ≤ (ofBlocks hi views).largestFree := by
    rcases Nat.eq_zero_or_pos view.size with zero | positive
    · omega
    · exact (le_largestFree_iff hi views view.size positive).mpr ⟨view, member, free, Nat.le_refl _⟩
  refine ⟨bound, fun some => ?_⟩
  obtain ⟨view, member, free, large⟩ :=
    (le_largestFree_iff hi views _ (Nat.pos_of_ne_zero some)).mp (Nat.le_refl _)
  exact ⟨view, member, free, Nat.le_antisymm (bound view member free) large⟩

end Statistics

/-! ## Lists -/

theorem Block.mk_injective : Function.Injective Block.mk :=
  fun _ _ same => Block.mk.inj same

/-- The members of all lists, bucket by bucket. -/
def allMembers (members : Bucket → List Block) : List Block :=
  Bucket.all.flatMap members

namespace Layout.Describes

variable {arena : Arena} {lists : FreeLists}

theorem mem_allMembers_iff (describes : layout.Describes arena lists) (block : Block) :
    block ∈ allMembers (fun bucket => (layout.chains bucket).map Block.mk) ↔
      ∃ entry ∈ layout.blocks, entry.IsFree ∧ block = ⟨entry.offset⟩ := by
  simp only [allMembers, List.mem_flatMap, List.mem_map, describes.listing.members]
  constructor
  · rintro ⟨bucket, -, _, ⟨entry, member, free, rfl, -⟩, rfl⟩
    exact ⟨entry, member, free, rfl⟩
  · rintro ⟨entry, member, free, rfl⟩
    exact ⟨Bucket.classify entry.size, List.mem_finRange _, _, ⟨entry, member, free, rfl, rfl⟩, rfl⟩

/-- No block is listed twice, neither on one list nor on two. -/
theorem nodup_allMembers (describes : layout.Describes arena lists) :
    (allMembers fun bucket => (layout.chains bucket).map Block.mk).Nodup := by
  refine List.nodup_flatMap.mpr ⟨fun bucket _ =>
    (describes.listing.nodup bucket).map Block.mk_injective, ?_⟩
  refine (List.nodup_finRange _).imp fun {left right} different => ?_
  intro block here there
  obtain ⟨offset, member, rfl⟩ := List.mem_map.mp here
  obtain ⟨_, also, same⟩ := List.mem_map.mp there
  cases same
  exact different (describes.listed.bucket_unique member also)

theorem nodup_offsets (describes : layout.Describes arena lists) (keep : Entry → Bool)
    {Item : Type} {place : Nat → Item} (injective : Function.Injective place) :
    ((layout.blocks.filter keep).map fun entry => place entry.offset).Nodup := by
  have tiling := describes.tiling
  refine (tiling.nodup.filter keep).map_on fun left here right there same => ?_
  exact tiling.eq_of_offset (List.mem_filter.mp here).1 (List.mem_filter.mp there).1
    (injective same)

end Layout.Describes

/-- The views of the blocks that a property of their headers selects. -/
theorem filter_views {arena : Arena} (blocks : List Entry) :
    (blocks.map (·.view arena)).filter (·.isFree) =
        (blocks.filter (·.IsFree)).map (·.view arena)
      ∧ (blocks.map (·.view arena)).filter (!·.isFree) =
        (blocks.filter (·.header.allocated)).map (·.view arena) := by
  have free (entry : Entry) : (entry.view arena).isFree = decide entry.IsFree := by
    rw [Bool.eq_iff_iff, entry.isFree_view, decide_eq_true_iff]
  have taken (entry : Entry) : (!(entry.view arena).isFree) = entry.header.allocated := by
    rw [free]
    cases allocated : entry.header.allocated <;> simp [Entry.IsFree, allocated]
  constructor
  · simp only [List.filter_map, Function.comp_def, free]
  · simp only [List.filter_map, Function.comp_def, taken]

/-- There are as many live addresses as allocated blocks. -/
theorem Sound.length_eq (sound : Sound heap live)
    (describes : layout.Describes heap.arena heap.lists) :
    live.length = (layout.blocks.filter (·.header.allocated)).length := by
  have injective : Function.Injective fun offset => (⟨offset + 8⟩ : Address) :=
    fun _ _ same => Nat.add_right_cancel (Address.mk.inj same)
  -- The payload of a block starts eight bytes behind the block.
  have same : live.Perm ((layout.blocks.filter (·.header.allocated)).map
      fun entry => (⟨entry.offset + 8⟩ : Address)) := by
    refine (List.perm_ext_iff_of_nodup sound.nodup
      (describes.nodup_offsets _ injective)).mpr fun address => ?_
    rw [sound.members_iff describes]
    simp only [List.mem_map, List.mem_filter]
    constructor
    · rintro ⟨_, _, ⟨entry, member, allocated, rfl, rfl⟩, rfl⟩
      exact ⟨entry, ⟨member, allocated⟩, rfl⟩
    · rintro ⟨entry, ⟨member, allocated⟩, rfl⟩
      exact ⟨_, _, ⟨entry, member, allocated, rfl, rfl⟩, rfl⟩
  rw [same.length_eq, List.length_map]

namespace Layout.Describes

variable {arena : Arena} {lists : FreeLists}

/-- The walk along the lists finds the free blocks that the walk in address order finds. -/
theorem allMembers_perm (describes : layout.Describes arena lists) :
    (allMembers fun bucket => (layout.chains bucket).map Block.mk).Perm
      (((layout.blocks.map (·.view arena)).filter (·.isFree)).map (·.block)) := by
  rw [(filter_views layout.blocks).1, List.map_map]
  refine (List.perm_ext_iff_of_nodup describes.nodup_allMembers
    (describes.nodup_offsets _ Block.mk_injective)).mpr fun block => ?_
  rw [describes.mem_allMembers_iff]
  simp only [List.mem_map, List.mem_filter, decide_eq_true_iff, and_assoc]
  exact exists_congr fun entry => and_congr_right fun _ => and_congr_right fun _ => eq_comm

/-- A list has as many members as there are free blocks of its class. -/
theorem length_chain (describes : layout.Describes arena lists) (bucket : Bucket) :
    (layout.chains bucket).length = ((layout.blocks.map (·.view arena)).filter (·.isFree)).countP
      fun view => Bucket.classify view.size == bucket := by
  -- The list and the walk need not agree in order, but both name a block once.
  have same : (layout.chains bucket).Perm
      ((layout.blocks.filter fun entry => decide entry.IsFree
        && (Bucket.classify entry.size == bucket)).map fun entry => entry.offset) := by
    refine (List.perm_ext_iff_of_nodup (describes.listing.nodup bucket)
      (describes.nodup_offsets _ Function.injective_id)).mpr fun offset => ?_
    rw [describes.listing.members]
    simp only [List.mem_map, List.mem_filter, Bool.and_eq_true, decide_eq_true_iff, beq_iff_eq, id]
    constructor
    · rintro ⟨entry, member, free, rfl, rfl⟩
      exact ⟨entry, ⟨member, free, rfl⟩, rfl⟩
    · rintro ⟨entry, ⟨member, free, rfl⟩, rfl⟩
      exact ⟨entry, member, free, rfl, rfl⟩
  rw [same.length_eq, List.length_map, (filter_views layout.blocks).1, List.countP_map,
    List.countP_filter, List.countP_eq_length_filter]
  congr 1
  refine List.filter_congr fun entry _ => ?_
  rw [Bool.and_comm]
  rfl

end Layout.Describes

/-! ## Totals -/

/-- The totals of the walk in address order agree with one another, with the addresses that are
live, and with the walk along the lists. -/
structure Accounting (heap : Heap) (live : List Address) (views : List BlockView)
    (members : Bucket → List Block) (statistics : Statistics) : Prop where
  arena : statistics.arenaBytes = heap.arena.hi
  bytes : statistics.allocatedBytes + statistics.freeBytes + 16 = statistics.arenaBytes
  payload : statistics.payloadBytes + 8 * statistics.allocatedBlocks = statistics.allocatedBytes
  live : statistics.allocatedBlocks = live.length ∧ live.Nodup ∧ .null ∉ live
  /-- The lists hold the free blocks, each once. -/
  listed : (allMembers members).Perm ((views.filter (·.isFree)).map (·.block))
  once : (allMembers members).Nodup
  counts : ∀ bucket : Bucket,
    statistics.bucketCounts[bucket.val]? = some (members bucket).length
  /-- The largest size is one of the sizes on the lists, or zero if there are none. -/
  bound : ∀ block ∈ allMembers members, ∃ size ≤ statistics.largestFree,
    block.size heap.arena = .ok size
  largest : statistics.largestFree ≠ 0 → ∃ block ∈ allMembers members,
    block.size heap.arena = .ok statistics.largestFree

theorem accounting_of_describes (sound : Sound heap live)
    (describes : layout.Describes heap.arena heap.lists) :
    Accounting heap live (layout.blocks.map (·.view heap.arena))
      (fun bucket => (layout.chains bucket).map Block.mk)
      (Statistics.ofBlocks heap.arena.hi (layout.blocks.map (·.view heap.arena))) := by
  have tiling := describes.tiling
  -- The blocks fill the arena between its sentinels, which take sixteen bytes.
  have sizes : ((layout.blocks.map (·.view heap.arena)).map (·.size)).sum + 16 = heap.arena.hi := by
    have stop := tiling.fills.stop_eq
    have start : Entry.prologue.stop = 8 := rfl
    have room := tiling.room
    have same : (layout.blocks.map (·.view heap.arena)).map (·.size) =
        layout.blocks.map (·.size) := by
      rw [List.map_map]
      rfl
    rw [same]
    omega
  have read (entry : Entry) (member : entry ∈ layout.blocks) :
      (Block.mk entry.offset).size heap.arena = .ok entry.size := by
    have bounds := tiling.bounds member
    have real := tiling.real entry member
    unfold Entry.stop at bounds
    exact Block.size_of_stored entry (tiling.stored entry member) (by omega)
  have largest := Statistics.largest_spec heap.arena.hi (layout.blocks.map (·.view heap.arena))
  constructor
  case arena => rfl
  case bytes =>
    rw [Statistics.bytes_eq]
    exact sizes
  case payload =>
    refine Statistics.payload_eq _ _ (List.forall_mem_map.mpr fun entry member => ?_)
    have real := tiling.real entry member
    change 8 ≤ entry.size
    omega
  case live =>
    refine ⟨?_, sound.nodup, sound.not_null⟩
    rw [sound.length_eq describes]
    change ((layout.blocks.map (·.view heap.arena)).filter (!·.isFree)).length = _
    rw [(filter_views layout.blocks).2, List.length_map]
  case listed => exact describes.allMembers_perm
  case once => exact describes.nodup_allMembers
  case counts =>
    intro bucket
    rw [List.length_map, describes.length_chain bucket]
    simp [Statistics.ofBlocks, Bucket.all]
  case bound =>
    intro block listed
    obtain ⟨entry, member, free, rfl⟩ := (describes.mem_allMembers_iff block).mp listed
    exact ⟨entry.size, largest.1 _ (List.mem_map_of_mem member)
      ((entry.isFree_view heap.arena).mpr free), read entry member⟩
  case largest =>
    intro some
    obtain ⟨view, there, free, same⟩ := largest.2 some
    obtain ⟨entry, member, rfl⟩ := List.mem_map.mp there
    refine ⟨⟨entry.offset⟩, (describes.mem_allMembers_iff _).mpr
      ⟨entry, member, (entry.isFree_view heap.arena).mp free, rfl⟩, ?_⟩
    rw [← same]
    exact read entry member

/-! ## Dumps -/

/-- A dump agrees with the walk in address order: a line for the heap, one for each block in that
order, and lines of buckets, among which each free block is named once, on the line whose printed
range its size lies in. -/
structure Printout (views : List BlockView) (text : String) : Prop where
  ordered : views.Pairwise fun left right => left.block.offset < right.block.offset
  rows : ∃ heading shown rows, lines text.toList = heading :: shown ++ rows
    ∧ List.Forall₂ BlockView.Tells views shown
    ∧ ∀ view ∈ views, view.isFree = true →
      (rows.flatMap words).count (hex view.block.offset).toList = 1
        ∧ ∀ row ∈ rows, (hex view.block.offset).toList ∈ words row ↔ Covers row view.size

/-- The words that look like offsets are those of the members. -/
theorem filter_words {buckets : List Bucket} {members : Bucket → List Block}
    {rows : List (List Char)}
    (shows : List.Forall₂ (fun bucket row => bucket.Lists (members bucket) row) buckets rows) :
    (rows.flatMap words).filter looksHex =
      (buckets.flatMap members).map fun block => (hex block.offset).toList := by
  induction shows with
  | nil => rfl
  | cons first _ ih =>
    rw [List.flatMap_cons, List.filter_append, first.offsets, ih, List.flatMap_cons,
      List.map_append]

theorem exists_bucket {buckets : List Bucket} {members : Bucket → List Block}
    {rows : List (List Char)} {row : List Char}
    (shows : List.Forall₂ (fun bucket row => bucket.Lists (members bucket) row) buckets rows)
    (shown : row ∈ rows) : ∃ bucket : Bucket, bucket.Lists (members bucket) row := by
  induction shows with
  | nil => cases shown
  | cons first _ ih =>
    rcases List.mem_cons.mp shown with rfl | later
    · exact ⟨_, first⟩
    · exact ih later

/-- Buckets without members may be left out. -/
theorem flatMap_filter_nonempty (buckets : List Bucket) (chains : Chains) :
    ((buckets.filter fun bucket => !(chains bucket).isEmpty).flatMap fun bucket =>
        (chains bucket).map Block.mk) =
      buckets.flatMap fun bucket => (chains bucket).map Block.mk := by
  induction buckets with
  | nil => rfl
  | cons bucket buckets ih => cases empty : chains bucket <;> simp [empty, ih]

theorem Layout.Describes.mem_chain_iff {arena : Arena} {lists : FreeLists} {entry : Entry}
    (describes : layout.Describes arena lists) (member : entry ∈ layout.blocks)
    (free : entry.IsFree) (bucket : Bucket) :
    entry.offset ∈ layout.chains bucket ↔ Bucket.classify entry.size = bucket := by
  rw [describes.listing.members]
  constructor
  · rintro ⟨other, there, -, start, classified⟩
    exact describes.tiling.eq_of_offset there member start ▸ classified
  · exact fun classified => ⟨entry, member, free, rfl, classified⟩

theorem Tiling.ascending {arena : Arena} {blocks : List Entry} (tiling : Tiling arena blocks) :
    blocks.Pairwise fun left right => left.offset < right.offset := by
  obtain ⟨blocks, -, -⟩ := List.pairwise_append.mp (List.pairwise_cons.mp tiling.ordered).2
  refine blocks.imp_of_mem fun {left right} here _ before => ?_
  have real := tiling.real left here
  unfold Entry.Before Entry.stop at before
  omega

theorem printout_of_describes (describes : layout.Describes heap.arena heap.lists) :
    ∃ text, heap.dump = .ok text ∧ Printout (layout.blocks.map (·.view heap.arena)) text := by
  obtain ⟨text, heading, shown, rows, dumps, cut, tells, shows⟩ := Heap.dump_of_describes describes
  have tiling := describes.tiling
  refine ⟨text, dumps, List.pairwise_map.mpr tiling.ascending, heading, shown, rows, cut, tells, ?_⟩
  intro view there isFree
  obtain ⟨entry, member, rfl⟩ := List.mem_map.mp there
  have free := (entry.isFree_view heap.arena).mp isFree
  constructor
  · have injective : Function.Injective fun block : Block => (hex block.offset).toList := by
      rintro ⟨left⟩ ⟨right⟩ same
      exact congrArg Block.mk (hex_injective (String.toList_inj.mp same))
    have listed := (describes.mem_allMembers_iff ⟨entry.offset⟩).mpr ⟨entry, member, free, rfl⟩
    have once := List.count_eq_one_of_mem describes.nodup_allMembers listed
    change (rows.flatMap words).count (hex entry.offset).toList = 1
    rw [← List.count_filter (looksHex_hex entry.offset), filter_words shows,
      flatMap_filter_nonempty]
    exact (List.count_map_of_injective _ _ injective ⟨entry.offset⟩).trans once
  · intro row present
    obtain ⟨bucket, lists⟩ := exists_bucket shows present
    -- The block is on the list of its class, and the line of that class shows its range.
    calc (hex entry.offset).toList ∈ words row
      _ ↔ entry.offset ∈ layout.chains bucket := by rw [lists.mem_iff]; simp
      _ ↔ Bucket.classify entry.size = bucket := describes.mem_chain_iff member free bucket
      _ ↔ bucket.lower ≤ entry.size ∧ ∀ upper ∈ bucket.upper?, entry.size ≤ upper :=
        Bucket.classify_eq_iff entry.size_mod (tiling.real entry member) bucket
      _ ↔ Covers row entry.size := (lists.covers_iff entry.size).symm

/-- In every reachable heap the two walks, the totals and the dump agree. -/
theorem traversals_agree (reachable : Reachable heap live) :
    ∃ views members statistics text, heap.blocks = .ok views
      ∧ (∀ bucket, heap.lists.members heap.arena bucket = .ok (members bucket))
      ∧ heap.statistics = .ok statistics ∧ heap.dump = .ok text
      ∧ Accounting heap live views members statistics ∧ Printout views text := by
  have sound := reachable.sound
  obtain ⟨layout, describes, -⟩ := sound.layout
  obtain ⟨text, dumps, printout⟩ := printout_of_describes describes
  exact ⟨_, _, _, text, Heap.blocks_of_describes describes, describes.members,
    Heap.statistics_of_describes describes, dumps, accounting_of_describes sound describes,
    printout⟩

/-- The totals and the dump of a heap with two live addresses. -/
theorem traversals_agree_of_two : ∃ (heap : Heap) (first second : Address)
    (views : List BlockView) (members : Bucket → List Block) (statistics : Statistics)
    (text : String), Reachable heap [second, first] ∧ heap.statistics = .ok statistics
      ∧ heap.dump = .ok text ∧ Accounting heap [second, first] views members statistics
      ∧ Printout views text ∧ statistics.allocatedBlocks = 2 := by
  obtain ⟨-, -, heap, first, second, -, -, -, -, -, reachable⟩ := exists_run
  obtain ⟨views, members, statistics, text, -, -, counted, dumps, accounting, printout⟩ :=
    traversals_agree reachable
  exact ⟨heap, first, second, views, members, statistics, text, reachable, counted, dumps,
    accounting, printout, accounting.live.1⟩

end BoundaryTag
