import BoundaryTag.Proofs.AddressPass
import Std.Data.HashMap.Lemmas
import Std.Data.HashSet.Lemmas

/-!
# The list pass of the validator

The pass crosses members off a finite set, so a chain that it gets through has no member twice, and
chains of different buckets have none in common because a block has one class. What is left on the
set at the end was on no list.
-/
namespace BoundaryTag.Validator

/-! ## The census -/

namespace Census

/-- The census after some blocks have been crossed off. -/
def cross (census : Census) (members : List Nat) : Census where
  headers := census.headers
  unlisted := members.foldl (fun unlisted offset => unlisted.erase offset) census.unlisted

/-- A member of a bucket has to be a free block of its class. -/
def Accepts (census : Census) (bucket : Bucket) (offset : Nat) : Prop :=
  ∃ header, census.headers[offset]? = some header ∧ header.allocated = false
    ∧ Bucket.classify header.size = bucket

theorem mem_cross (census : Census) (members : List Nat) (offset : Nat) :
    offset ∈ (census.cross members).unlisted ↔ offset ∈ census.unlisted ∧ offset ∉ members := by
  induction members generalizing census with
  | nil => simp [cross]
  | cons first rest ih =>
    have step : census.cross (first :: rest)
        = ({ census with unlisted := census.unlisted.erase first } : Census).cross rest := rfl
    rw [step, ih, Std.HashSet.mem_erase, beq_eq_false_iff_ne, List.mem_cons, not_or, ne_comm]
    tauto

theorem cross_append (census : Census) (left right : List Nat) :
    census.cross (left ++ right) = (census.cross left).cross right := by
  simp only [cross, List.foldl_append]

theorem Accepts.bucket_unique {census : Census} {left right : Bucket} {offset : Nat}
    (first : census.Accepts left offset) (second : census.Accepts right offset) :
    left = right := by
  obtain ⟨header, found, -, rfl⟩ := first
  obtain ⟨other, again, -, rfl⟩ := second
  rw [Option.some.inj (found.symm.trans again)]

variable {arena : Arena} {blocks : List Entry}

/-- The census of a tiled arena knows each block by where it starts. -/
theorem headers_ofBlocks (tiling : Tiling arena blocks) (offset : Nat) (header : Header) :
    (ofBlocks blocks).headers[offset]? = some header ↔ ⟨offset, header⟩ ∈ blocks := by
  have distinct : (blocks.map fun entry => (entry.offset, entry.header)).Pairwise
      fun left right => (left.1 == right.1) = false := by
    rw [List.pairwise_map]
    obtain ⟨ordered, -⟩ := List.pairwise_append.mp (List.pairwise_cons.mp tiling.ordered).2
    refine ordered.imp_of_mem fun {left right} here _ before => ?_
    have real := tiling.real left here
    unfold Entry.Before Entry.stop at before
    rw [beq_eq_false_iff_ne]
    omega
  have find (header : Header) (member : ⟨offset, header⟩ ∈ blocks) :
      (ofBlocks blocks).headers[offset]? = some header :=
    Std.HashMap.getElem?_ofList_of_mem (beq_self_eq_true offset) distinct
      (List.mem_map.mpr ⟨_, member, rfl⟩)
  refine ⟨fun found => ?_, find header⟩
  -- What the map holds is a header of the block that starts there, and there is only one.
  have known : offset ∈ (ofBlocks blocks).headers := by
    rw [Std.HashMap.mem_iff_isSome_getElem?, found]
    rfl
  rw [ofBlocks, Std.HashMap.mem_ofList, List.contains_iff_mem] at known
  simp only [List.map_map, List.mem_map, Function.comp_apply] at known
  obtain ⟨entry, member, rfl⟩ := known
  rw [Option.some.inj (found.symm.trans (find entry.header member))]
  exact member

theorem mem_unlisted_ofBlocks (offset : Nat) :
    offset ∈ (ofBlocks blocks).unlisted ↔
      ∃ entry ∈ blocks, entry.IsFree ∧ entry.offset = offset := by
  simp [ofBlocks, Std.HashSet.mem_ofList, Entry.IsFree, and_assoc]

theorem size_eq_zero_iff (census : Census) :
    census.unlisted.size = 0 ↔ ∀ offset, offset ∉ census.unlisted := by
  rw [← beq_iff_eq, ← Std.HashSet.isEmpty_eq_size_eq_zero,
    Std.HashSet.isEmpty_iff_forall_not_mem]

end Census

/-! ## One chain -/

variable {arena : Arena} {bucket : Bucket} {census answer : Census}

/-- The blocks that a census knows have room for their links. -/
def Roomy (arena : Arena) (census : Census) : Prop :=
  ∀ offset header, census.headers[offset]? = some header →
    offset ≠ 0 ∧ 16 ≤ header.size ∧ offset + header.size ≤ arena.hi

structure Crossed (arena : Arena) (bucket : Bucket) (census : Census) (previous : Nat)
    (members : List Nat) : Prop where
  links : arena.Linked (FreeLists.isTwoWay bucket) previous members 0
  nodup : members.Nodup
  accepted : ∀ offset ∈ members, census.Accepts bucket offset ∧ offset ∈ census.unlisted

theorem Roomy.bounds (roomy : Roomy arena census) {offset : Nat}
    (accepts : census.Accepts bucket offset) :
    offset ≠ 0 ∧ offset + 16 ≤ arena.hi
      ∧ (FreeLists.isTwoWay bucket = true → offset + 24 ≤ arena.hi) := by
  obtain ⟨header, found, -, rfl⟩ := accepts
  obtain ⟨nonzero, real, inside⟩ := roomy offset header found
  refine ⟨nonzero, by omega, fun twoWay => ?_⟩
  have large := (Bucket.isTwoWay_classify header.size).mp twoWay
  omega

theorem checkMember_passes_iff (offset : Nat) :
    Passes (checkMember census bucket offset) () ↔ census.Accepts bucket offset := by
  unfold checkMember Census.Accepts
  cases census.headers[offset]? with
  | none => simp [not_passes_throw]
  | some header =>
    simp only [Option.some.injEq, exists_eq_left']
    rw [passes_then_iff, passes_require_iff, passes_require_iff, Bool.not_eq_true', beq_iff_eq]

theorem checkBackLink_passes_iff (previous : Option Nat) (offset : Nat)
    (room : FreeLists.isTwoWay bucket = true → offset + 24 ≤ arena.hi) :
    Passes (checkBackLink arena bucket previous offset) () ↔
      (FreeLists.isTwoWay bucket = true → arena.word (offset + 16) = previous.getD 0) := by
  unfold checkBackLink
  by_cases twoWay : FreeLists.isTwoWay bucket = true
  · have inside := room twoWay
    have read : arena.readWord (offset + 2 * 8) = .ok (arena.word (offset + 16)) :=
      Arena.readWord_of_le arena (offset + 16) (by omega)
    rw [if_pos twoWay, passes_bind_iff]
    simp only [passes_lift_iff, wordSize_eq, read, Except.ok.injEq, exists_eq_left', twoWay,
      true_implies]
    cases previous <;> rw [passes_require_iff, beq_iff_eq] <;> rfl
  · rw [if_neg twoWay, passes_pure_iff]
    simp [twoWay]

theorem checkChain_step (previous : Option Nat) (offset : Nat)
    (room : census.Accepts bucket offset → offset + 16 ≤ arena.hi
      ∧ (FreeLists.isTwoWay bucket = true → offset + 24 ≤ arena.hi)) :
    Passes (checkChain arena bucket census previous (some ⟨offset⟩)) answer ↔
      census.Accepts bucket offset ∧ offset ∈ census.unlisted
        ∧ (FreeLists.isTwoWay bucket = true → arena.word (offset + 16) = previous.getD 0)
        ∧ Passes (checkChain arena bucket (census.cross [offset]) (some offset)
            (if arena.word (offset + 8) = 0 then none else some ⟨arena.word (offset + 8)⟩))
          answer := by
  rw [checkChain, passes_then_iff, checkMember_passes_iff]
  refine and_congr_right fun accepts => ?_
  obtain ⟨near, far⟩ := room accepts
  have next : Block.linkAt (offset + 8) arena =
      .ok (if arena.word (offset + 8) = 0 then none else some ⟨arena.word (offset + 8)⟩) := by
    rw [Block.linkAt, except_bind_of_ok (Arena.readWord_of_le arena (offset + 8) (by omega))]
    rfl
  split
  next met =>
    rw [passes_then_iff, checkBackLink_passes_iff _ _ far, passes_bind_iff]
    simp only [passes_lift_iff, wordSize_eq, next, Except.ok.injEq, exists_eq_left', met,
      true_and]
    rfl
  next absent => simp [not_passes_throw, absent]

/-- A link leads to the head of the rest of a chain. -/
theorem head_of_link (rest : List Nat) (word : Nat) (nonzero : ∀ offset ∈ rest, offset ≠ 0) :
    (if word = 0 then none else some (Block.mk word)) = rest.head?.map Block.mk ↔
      word = rest.head?.getD 0 := by
  cases rest with
  | nil => by_cases zero : word = 0 <;> simp [zero]
  | cons offset rest =>
    have positive := nonzero offset List.mem_cons_self
    by_cases zero : word = 0
    · simp [zero, positive.symm]
    · simp [zero]

theorem crossed_cons_iff (previous offset : Nat) (rest : List Nat) :
    Crossed arena bucket census previous (offset :: rest) ↔
      (census.Accepts bucket offset ∧ offset ∈ census.unlisted
        ∧ (FreeLists.isTwoWay bucket = true → arena.word (offset + 16) = previous))
        ∧ arena.word (offset + 8) = rest.head?.getD 0
        ∧ Crossed arena bucket (census.cross [offset]) offset rest := by
  constructor
  · rintro ⟨⟨forward, back, links⟩, nodup, accepted⟩
    obtain ⟨fresh, nodup⟩ := List.nodup_cons.mp nodup
    obtain ⟨accepts, met⟩ := accepted offset List.mem_cons_self
    refine ⟨⟨accepts, met, back⟩, forward, links, nodup, fun other member => ?_⟩
    obtain ⟨accepts, met⟩ := accepted other (List.mem_cons_of_mem _ member)
    refine ⟨accepts, (Census.mem_cross _ _ _).mpr ⟨met, ?_⟩⟩
    rw [List.mem_singleton]
    rintro rfl
    exact fresh member
  · rintro ⟨⟨accepts, met, back⟩, forward, links, nodup, accepted⟩
    have later (other : Nat) (member : other ∈ rest) :=
      (Census.mem_cross census [offset] other).mp (accepted other member).2
    refine ⟨⟨forward, back, links⟩, List.nodup_cons.mpr ⟨fun member => ?_, nodup⟩, ?_⟩
    · exact (later offset member).2 (List.mem_singleton_self offset)
    · rintro other (_ | ⟨_, member⟩)
      · exact ⟨accepts, met⟩
      · exact ⟨(accepted other member).1, (later other member).1⟩

/-- The pass crosses off the members of a chain, which is finite and has each of them once. The
induction is on the walk itself, which goes on while there are blocks to cross off. -/
theorem checkChain_passes_iff (previous : Option Nat) (current : Option Block)
    (roomy : Roomy arena census) :
    Passes (checkChain arena bucket census previous current) answer ↔
      ∃ members, current = members.head?.map Block.mk
        ∧ Crossed arena bucket census (previous.getD 0) members
        ∧ answer = census.cross members := by
  induction census, previous, current using checkChain.induct with
  | case1 census previous =>
    rw [checkChain, passes_pure_iff]
    constructor
    · rintro rfl
      exact ⟨[], rfl, ⟨trivial, .nil, nofun⟩, rfl⟩
    · rintro ⟨members, head, -, rfl⟩
      cases members with
      | nil => rfl
      | cons first rest => cases head
  | case2 census previous offset ih =>
    -- Zero is no block's offset, so a link tells whether the chain goes on.
    have nonzero (rest : List Nat)
        (crossed : Crossed arena bucket (census.cross [offset]) offset rest) :
        ∀ other ∈ rest, other ≠ 0 :=
      fun other member => (roomy.bounds (crossed.accepted other member).1).1
    rw [checkChain_step _ _ fun accepts => (roomy.bounds accepts).2]
    constructor
    · rintro ⟨accepts, met, back, passes⟩
      obtain ⟨rest, link, crossed, rfl⟩ := (ih met _ roomy).mp passes
      rw [head_of_link _ _ (nonzero rest crossed)] at link
      exact ⟨offset :: rest, rfl,
        (crossed_cons_iff _ _ _).mpr ⟨⟨accepts, met, back⟩, link, crossed⟩, rfl⟩
    · rintro ⟨members, head, crossed, rfl⟩
      cases members with
      | nil => cases head
      | cons first rest =>
        obtain rfl : offset = first := Block.mk.inj (Option.some.inj head)
        obtain ⟨⟨accepts, met, back⟩, link, crossed⟩ := (crossed_cons_iff _ _ _).mp crossed
        refine ⟨accepts, met, back, (ih met _ roomy).mpr ⟨rest, ?_, crossed, rfl⟩⟩
        exact (head_of_link _ _ (nonzero rest crossed)).mpr link

/-! ## All chains -/

theorem crossed_cross_iff (previous : Nat) (gone members : List Nat) :
    Crossed arena bucket (census.cross gone) previous members ↔
      Crossed arena bucket census previous members ∧ ∀ offset ∈ members, offset ∉ gone := by
  constructor
  · rintro ⟨links, nodup, accepted⟩
    have met (offset : Nat) (member : offset ∈ members) :=
      (Census.mem_cross census gone offset).mp (accepted offset member).2
    refine ⟨⟨links, nodup, fun offset member => ?_⟩, fun offset member => (met offset member).2⟩
    exact ⟨(accepted offset member).1, (met offset member).1⟩
  · rintro ⟨⟨links, nodup, accepted⟩, still⟩
    refine ⟨links, nodup, fun offset member => ⟨(accepted offset member).1, ?_⟩⟩
    exact (Census.mem_cross _ _ _).mpr ⟨(accepted offset member).2, still offset member⟩

theorem checkBuckets_cons (lists : FreeLists) (rest : List Bucket) :
    checkBuckets arena lists (bucket :: rest) census =
      checkChain arena bucket census none (lists.head bucket) >>= checkBuckets arena lists rest :=
  List.foldlM_cons

/-- The pass over some buckets gets through the chain of each and crosses off all their members. -/
theorem checkBuckets_passes_iff {lists : FreeLists} (buckets : List Bucket)
    (distinct : buckets.Nodup) (roomy : Roomy arena census) :
    Passes (checkBuckets arena lists buckets census) answer ↔
      ∃ chains : Chains,
        (∀ bucket ∈ buckets, lists.head bucket = (chains bucket).head?.map Block.mk
          ∧ Crossed arena bucket census 0 (chains bucket))
        ∧ answer = census.cross (buckets.flatMap chains) := by
  induction buckets generalizing census with
  | nil =>
    rw [checkBuckets, List.foldlM_nil, passes_pure_iff]
    constructor
    · rintro rfl
      exact ⟨fun _ => [], nofun, rfl⟩
    · rintro ⟨chains, -, rfl⟩
      rfl
  | cons bucket rest ih =>
    obtain ⟨fresh, distinct⟩ := List.nodup_cons.mp distinct
    rw [checkBuckets_cons, passes_bind_iff]
    constructor
    · rintro ⟨middle, first, passes⟩
      obtain ⟨members, head, crossed, rfl⟩ := (checkChain_passes_iff _ _ roomy).mp first
      have still : Roomy arena (census.cross members) := roomy
      obtain ⟨chains, others, rfl⟩ := (ih distinct still).mp passes
      -- The chains found so far are extended by the one of this bucket.
      refine ⟨Function.update chains bucket members, ?_, ?_⟩
      · rintro other (_ | ⟨_, later⟩)
        · rw [Function.update_self]
          exact ⟨head, crossed⟩
        · have different : other ≠ bucket := by
            rintro rfl
            exact fresh later
          rw [Function.update_of_ne different]
          exact ⟨(others other later).1, ((crossed_cross_iff _ _ _).mp (others other later).2).1⟩
      · have same : rest.flatMap (Function.update chains bucket members) = rest.flatMap chains := by
          apply List.flatMap_congr
          intro other later
          rw [Function.update_of_ne]
          rintro rfl
          exact fresh later
        rw [List.flatMap_cons, Function.update_self, same, Census.cross_append]
    · rintro ⟨chains, walks, rfl⟩
      obtain ⟨head, crossed⟩ := walks bucket List.mem_cons_self
      have still : Roomy arena (census.cross (chains bucket)) := roomy
      refine ⟨census.cross (chains bucket), (checkChain_passes_iff _ _ roomy).mpr
        ⟨chains bucket, head, crossed, rfl⟩, (ih distinct still).mpr ⟨chains, ?_, ?_⟩⟩
      · intro other later
        obtain ⟨otherHead, otherCrossed⟩ := walks other (List.mem_cons_of_mem _ later)
        refine ⟨otherHead, (crossed_cross_iff _ _ _).mpr ⟨otherCrossed, ?_⟩⟩
        -- A member of two chains would be of two classes.
        intro offset member here
        have same := (otherCrossed.accepted offset member).1.bucket_unique
          (crossed.accepted offset here).1
        exact fresh (same ▸ later)
      · rw [List.flatMap_cons, Census.cross_append]

theorem roomy_ofBlocks {blocks : List Entry} (tiling : Tiling arena blocks) :
    Roomy arena (.ofBlocks blocks) := by
  intro offset header found
  have member := (Census.headers_ofBlocks tiling offset header).mp found
  obtain ⟨low, high⟩ : 8 ≤ offset ∧ offset + header.size + 8 ≤ arena.hi := tiling.bounds member
  refine ⟨by omega, tiling.real ⟨offset, header⟩ member, by omega⟩

theorem accepts_ofBlocks {blocks : List Entry} (tiling : Tiling arena blocks) (offset : Nat) :
    Census.Accepts (.ofBlocks blocks) bucket offset ↔
      ∃ entry ∈ blocks, entry.IsFree ∧ entry.offset = offset
        ∧ Bucket.classify entry.size = bucket := by
  unfold Census.Accepts
  simp only [Census.headers_ofBlocks tiling]
  constructor
  · rintro ⟨header, member, free, classified⟩
    exact ⟨⟨offset, header⟩, member, free, rfl, classified⟩
  · rintro ⟨entry, member, free, rfl, classified⟩
    exact ⟨entry.header, member, free, classified⟩

/-- In a tiled arena the pass accepts the lists exactly if some chains list the free blocks. -/
theorem checkLists_passes_iff {lists : FreeLists} {blocks : List Entry}
    (tiling : Tiling arena blocks) :
    Passes (checkLists arena lists blocks) () ↔
      ∃ chains, Listing arena lists blocks chains := by
  have roomy := roomy_ofBlocks tiling
  have all (bucket : Bucket) : bucket ∈ Bucket.all := List.mem_finRange bucket
  rw [checkLists, passes_bind_iff]
  simp only [checkBuckets_passes_iff Bucket.all (List.nodup_finRange _) roomy, passes_require_iff,
    beq_iff_eq]
  constructor
  · rintro ⟨-, ⟨chains, walks, rfl⟩, none⟩
    refine ⟨chains, fun bucket => (walks bucket (all bucket)).1,
      fun bucket => (walks bucket (all bucket)).2.links,
      fun bucket => (walks bucket (all bucket)).2.nodup, fun bucket offset => ⟨?_, ?_⟩⟩
    · intro member
      exact (accepts_ofBlocks tiling offset).mp
        ((walks bucket (all bucket)).2.accepted offset member).1
    · rintro ⟨entry, present, free, start, classified⟩
      have accepts := (accepts_ofBlocks tiling offset).mpr ⟨entry, present, free, start, classified⟩
      have met := (Census.mem_unlisted_ofBlocks offset).mpr ⟨entry, present, free, start⟩
      by_contra absent
      -- Only the chain of its own class could have crossed the block off.
      refine (Census.size_eq_zero_iff _).mp none offset ((Census.mem_cross _ _ _).mpr ⟨met, ?_⟩)
      rw [List.mem_flatMap]
      rintro ⟨other, -, member⟩
      have same := ((walks other (all other)).2.accepted offset member).1.bucket_unique accepts
      exact absent (same ▸ member)
  · rintro ⟨chains, listing⟩
    refine ⟨_, ⟨chains, fun bucket _ => ⟨listing.heads bucket, listing.links bucket,
      listing.nodup bucket, fun offset member => ?_⟩, rfl⟩, (Census.size_eq_zero_iff _).mpr ?_⟩
    · obtain ⟨entry, present, free, start, classified⟩ := (listing.members bucket offset).mp member
      exact ⟨(accepts_ofBlocks tiling offset).mpr ⟨entry, present, free, start, classified⟩,
        (Census.mem_unlisted_ofBlocks offset).mpr ⟨entry, present, free, start⟩⟩
    · -- A block that is left would be free and on no list.
      intro offset left
      obtain ⟨met, gone⟩ := (Census.mem_cross _ _ _).mp left
      obtain ⟨entry, present, free, start⟩ := (Census.mem_unlisted_ofBlocks offset).mp met
      refine gone (List.mem_flatMap.mpr ⟨Bucket.classify entry.size, all _, ?_⟩)
      exact (listing.members _ offset).mpr ⟨entry, present, free, start, rfl⟩

end BoundaryTag.Validator
