import BoundaryTag.Proofs.Search
import Mathlib.Data.List.MinMax

/-!
# The best fit within a budget

A search comes to the blocks that are large enough in a fixed order: class by class from that of the
wanted size upward, and head first in each class. It answers the first of the smallest among as many
of them as the budget allows. That it may stop before, at a block that fits exactly, makes no
difference, because no block that is large enough is smaller than that one.
-/
namespace BoundaryTag.FreeLists

variable {arena : Arena} {lists : FreeLists} {chains : Chains} {size : Nat → Nat}
  {wanted candidates : Nat}

/-- The listed blocks that are large enough, in the order in which a search comes to them. -/
def eligible (size : Nat → Nat) (wanted : Nat) (chains : Chains) : List Nat :=
  ((Bucket.all.filter (Bucket.classify wanted ≤ ·)).flatMap chains).filter (wanted ≤ size ·)

/-- A search that has considered all blocks of a list, whatever it found on the way. -/
def Search.through (size : Nat → Nat) (members : List Nat) : Search :=
  members.foldl (fun search offset => search.consider ⟨offset⟩ (size offset)) .start

/-! ## One list for all buckets -/

theorem scan_append (left right : List Nat) (search : Search) :
    scan size wanted candidates (left ++ right) search =
      if (scan size wanted candidates left search).2 then scan size wanted candidates left search
      else scan size wanted candidates right (scan size wanted candidates left search).1 := by
  induction left generalizing search with
  | nil => simp [scan]
  | cons offset rest ih =>
    simp only [List.cons_append, scan, ih]
    split
    · split <;> simp_all
    · rfl

theorem scanAll_eq_scan (buckets : List Bucket) (search : Search) :
    scanAll size wanted candidates chains buckets search =
      (scan size wanted candidates (buckets.flatMap chains) search).1 := by
  induction buckets generalizing search with
  | nil => rfl
  | cons bucket rest ih =>
    rw [List.flatMap_cons, scan_append, scanAll]
    cases scan size wanted candidates (chains bucket) search with
    | mk found finished => cases finished <;> simp [ih]

/-- Blocks that are too small are passed over. -/
theorem scan_filter (members : List Nat) (search : Search) :
    scan size wanted candidates members search =
      scan size wanted candidates (members.filter (wanted ≤ size ·)) search := by
  induction members generalizing search with
  | nil => rfl
  | cons offset rest ih =>
    by_cases large : wanted ≤ size offset
    · simp [scan, large, ih]
    · simp [scan, large, ih]

/-! ## What a search holds -/

namespace Search

theorem through_concat (members : List Nat) (offset : Nat) :
    through size (members ++ [offset]) =
      (through size members).consider ⟨offset⟩ (size offset) := by
  simp [through]

theorem seen_through (members : List Nat) :
    (through size members).seen = members.length := by
  induction members using List.reverseRecOn with
  | nil => rfl
  | append_singleton members offset ih => simp [through_concat, consider, ih]

/-- What is held is the first of the smallest blocks considered. -/
theorem best_through (members : List Nat) :
    (through size members).best =
      (members.argmin size).map fun offset => (⟨offset⟩, size offset) := by
  induction members using List.reverseRecOn with
  | nil => rfl
  | append_singleton members offset ih =>
    rw [through_concat, consider, ih, List.argmin_concat]
    cases members.argmin size with
    | none => rfl
    | some best =>
      by_cases closer : size offset < size best <;> simp [closer]

/-- Blocks that are not closer do not change what is held. -/
theorem best_foldl_of_le {search : Search} {best : Block × Nat} (holds : search.best = some best)
    (members : List Nat) (further : ∀ offset ∈ members, best.2 ≤ size offset) :
    (members.foldl (fun search offset => search.consider ⟨offset⟩ (size offset)) search).best =
      some best := by
  induction members generalizing search with
  | nil => exact holds
  | cons offset rest ih =>
    obtain ⟨here, later⟩ := List.forall_mem_cons.mp further
    apply ih _ later
    simp [consider, holds, Nat.not_lt.mpr here]

/-- After a block that fits exactly, blocks that are large enough do not change what is held. -/
theorem best_through_append {met more : List Nat} {offset : Nat} (member : offset ∈ met)
    (exact : size offset = wanted) (large : ∀ other ∈ more, wanted ≤ size other) :
    (through size (met ++ more)).best = (through size met).best := by
  cases held : met.argmin size with
  | none =>
    rw [List.argmin_eq_none] at held
    simp [held] at member
  | some best =>
    have holds : (through size met).best = some (⟨best⟩, size best) := by
      rw [best_through, held]
      rfl
    have close : size best ≤ wanted := exact ▸ List.le_of_mem_argmin member held
    rw [holds, through, List.foldl_append]
    apply best_foldl_of_le holds
    exact fun other there => close.trans (large other there)

end Search

/-- While the budget lasts, a scan of blocks that are large enough holds what it would hold if it
had considered all of them that the budget allows. The induction is on the blocks still to come. -/
theorem best_scan (met members : List Nat) (budget : met.length < candidates)
    (large : ∀ offset ∈ members, wanted ≤ size offset) :
    (scan size wanted candidates members (.through size met)).1.best =
      (Search.through size ((met ++ members).take candidates)).best := by
  induction members generalizing met with
  | nil => simp [scan, List.take_of_length_le (Nat.le_of_lt budget)]
  | cons offset rest ih =>
    obtain ⟨here, later⟩ := List.forall_mem_cons.mp large
    have length : (met ++ [offset]).length = met.length + 1 := by simp
    rw [scan, if_pos here, ← Search.through_concat, Search.seen_through, length,
      List.append_cons met offset rest]
    split
    next ended =>
      rw [List.take_append, List.take_of_length_le (by omega)]
      rcases ended with spent | exact
      · simp [length, Nat.sub_eq_zero_of_le spent]
      · refine (Search.best_through_append (List.mem_concat_self) exact ?_).symm
        exact fun other taken => later other (List.mem_of_mem_take taken)
    next goesOn => exact ih (met ++ [offset]) (by omega) later

/-! ## The answer -/

/-- The search answers what a search through all blocks within the budget would. -/
theorem findFit_eq_through (chained : Chained arena lists chains) (positive : 0 < candidates) :
    lists.findFit arena wanted candidates =
      .ok ((Search.through arena.sizeAt
        ((eligible arena.sizeAt wanted chains).take candidates)).best.map (·.1)) := by
  have searched := searchBuckets_eq_scanAll chained wanted candidates
    (Bucket.all.filter (Bucket.classify wanted ≤ ·)) .start
  have large : ∀ offset ∈ eligible arena.sizeAt wanted chains, wanted ≤ arena.sizeAt offset := by
    simp [eligible]
  have held := best_scan [] (eligible arena.sizeAt wanted chains) positive large
  rw [findFit, except_bind_of_ok searched, scanAll_eq_scan, scan_filter]
  exact congrArg (fun best => Except.ok (best.map (·.1))) held

/-- Every listed block that is large enough is eligible: the classes below that of the wanted size
hold smaller blocks only. -/
theorem mem_eligible_iff (chained : Chained arena lists chains) (offset : Nat) :
    offset ∈ eligible arena.sizeAt wanted chains ↔
      (∃ bucket, offset ∈ chains bucket) ∧ wanted ≤ arena.sizeAt offset := by
  simp only [eligible, List.mem_filter, List.mem_flatMap, decide_eq_true_eq]
  apply and_congr_left
  intro large
  constructor
  · rintro ⟨bucket, -, member⟩
    exact ⟨bucket, member⟩
  · rintro ⟨bucket, member⟩
    refine ⟨bucket, ⟨List.mem_finRange bucket, ?_⟩, member⟩
    rw [← chained.classified bucket offset member]
    exact Bucket.classify_mono _ _ large

/-- On chains that come to an end the search ends without a fault. Its answer is the first of the
smallest among the first eligible blocks, as many as there are candidates, and that is none exactly
if all listed blocks are too small. The answer is the same as that of a search that does not stop at
an exact fit, and if there are candidates enough then no listed block is a closer fit. -/
theorem findFit_eq_argmin (chained : Chained arena lists chains) (wanted : Nat)
    (positive : 0 < candidates) :
    let within := (eligible arena.sizeAt wanted chains).take candidates
    lists.findFit arena wanted candidates = .ok ((within.argmin arena.sizeAt).map Block.mk)
      ∧ (lists.findFit arena wanted candidates = .ok none ↔
        ∀ bucket, ∀ offset ∈ chains bucket, arena.sizeAt offset < wanted)
      ∧ lists.findFit arena wanted candidates =
        .ok ((Search.through arena.sizeAt within).best.map (·.1))
      ∧ ((eligible arena.sizeAt wanted chains).length ≤ candidates → ∀ block,
        lists.findFit arena wanted candidates = .ok (some block) →
          (∃ bucket, block.offset ∈ chains bucket) ∧ wanted ≤ arena.sizeAt block.offset
            ∧ ∀ bucket, ∀ offset ∈ chains bucket, wanted ≤ arena.sizeAt offset →
              arena.sizeAt block.offset ≤ arena.sizeAt offset) := by
  intro within
  have through : lists.findFit arena wanted candidates =
      .ok ((Search.through arena.sizeAt within).best.map (·.1)) :=
    findFit_eq_through chained positive
  have answer : lists.findFit arena wanted candidates =
      .ok ((within.argmin arena.sizeAt).map Block.mk) := by
    rw [through, Search.best_through, Option.map_map]
    rfl
  refine ⟨answer, ?_, through, ?_⟩
  · rcases findFit_spec chained wanted candidates with
      ⟨found, small⟩ | ⟨bucket, offset, member, large, found⟩
    · simpa [found] using small
    · simp only [found, Except.ok.injEq, reduceCtorEq, false_iff]
      intro small
      exact absurd (small bucket offset member) (Nat.not_lt.mpr large)
  · intro enough block found
    have all : within = eligible arena.sizeAt wanted chains := List.take_of_length_le enough
    rw [answer, Except.ok.injEq, Option.map_eq_some_iff, all] at found
    obtain ⟨offset, smallest, rfl⟩ := found
    obtain ⟨listed, large⟩ := (mem_eligible_iff chained offset).mp (List.argmin_mem smallest)
    refine ⟨listed, large, fun bucket other member fits => ?_⟩
    exact List.le_of_mem_argmin ((mem_eligible_iff chained other).mpr ⟨⟨bucket, member⟩, fits⟩)
      smallest

/-- An arena with three blocks in a row, of 64, 48 and 48 bytes, each linked to the next one. -/
def threeBlocks : Arena where
  backing := .mapping
  capacity := 4096
  hi := 256
  store := [(8, 64), (16, 72), (72, 48), (80, 120), (120, 48)].foldl
    (fun store (offset, word) => store.overwrite offset wordSize (Bytes.byteOf word)) .empty
  hi_le_capacity := by decide
  capacity_lt := by decide
  zero_above_hi := nofun

/-- Of two blocks that are equally close the first is found, unless the budget ends before it. -/
theorem findFit_of_threeBlocks : ∃ (lists : FreeLists) (chains : Chains),
    Chained threeBlocks lists chains ∧ lists.findFit threeBlocks 40 9 = .ok (some ⟨72⟩)
      ∧ lists.findFit threeBlocks 40 1 = .ok (some ⟨8⟩) := by
  have bucket : Bucket.classify 64 = 2 ∧ Bucket.classify 48 = 2 := by decide
  have sizes : threeBlocks.sizeAt 8 = 64 ∧ threeBlocks.sizeAt 72 = 48
      ∧ threeBlocks.sizeAt 120 = 48 := by decide +kernel
  have links : (Block.mk 8).nextFree threeBlocks = .ok (some ⟨72⟩)
      ∧ (Block.mk 72).nextFree threeBlocks = .ok (some ⟨120⟩)
      ∧ (Block.mk 120).nextFree threeBlocks = .ok none := by decide +kernel
  have chained : Chained threeBlocks (empty.setHead 2 (some ⟨8⟩))
      fun bucket => if bucket = 2 then [8, 72, 120] else [] := by
    constructor
    · intro bucket
      rw [head_setHead, head_empty]
      split
      · exact .link links.1 (.link links.2.1 (.link links.2.2 .done))
      · exact .done
    · intro bucket offset member
      split at member
      next same =>
        simp only [List.mem_cons, List.not_mem_nil, or_false] at member
        rcases member with rfl | rfl | rfl <;> simp [*]
      next => cases member
  have order : eligible threeBlocks.sizeAt 40
      (fun bucket => if bucket = 2 then [8, 72, 120] else []) = [8, 72, 120] := by decide +kernel
  have wide := (findFit_eq_argmin chained 40 (show 0 < 9 by decide)).1
  have narrow := (findFit_eq_argmin chained 40 (show 0 < 1 by decide)).1
  simp only [order] at wide narrow
  refine ⟨_, _, chained, wide.trans ?_, narrow.trans ?_⟩
  · simp [List.argmin_cons, sizes]
  · simp

end BoundaryTag.FreeLists
