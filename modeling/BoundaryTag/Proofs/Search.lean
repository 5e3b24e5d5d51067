import BoundaryTag.Proofs.FreeLists

/-!
# The search for a fit

Where the forward links of every bucket come to an end the search is a scan of plain lists. It finds
a block exactly if some listed block is large enough: the classes that it leaves out hold smaller
blocks only, and it stops early only with a block in hand.
-/
namespace BoundaryTag

theorem Block.inside_of_nextFree {arena : Arena} {offset : Nat} {next : Option Block}
    (read : (Block.mk offset).nextFree arena = .ok next) : offset + 16 ≤ arena.hi := by
  obtain ⟨slot, start, read⟩ := exists_of_except_bind read
  obtain ⟨word, stored, -⟩ := exists_of_except_bind read
  have place : slot = offset + 8 := by
    unfold nextSlot payload addWord at start
    split at start
    · exact (Except.ok.inj start).symm
    · cases start
  subst place
  by_cases inside : offset + 8 + 8 ≤ arena.hi
  · exact inside
  · simp [Arena.readWord, Arena.readWord?_eq, wordSize_eq, inside] at stored

namespace FreeLists

variable {arena : Arena} {lists : FreeLists} {chains : Chains} {bucket : Bucket}

/-! ## Chains that come to an end -/

/-- Forward links lead through the blocks of a plain list, and the last one leads to none. -/
inductive Trail (arena : Arena) : Option Block → List Nat → Prop
  | done : Trail arena none []
  | link {offset : Nat} {next : Option Block} {rest : List Nat}
      (read : (Block.mk offset).nextFree arena = .ok next) (further : Trail arena next rest) :
      Trail arena (some ⟨offset⟩) (offset :: rest)

/-- Every bucket is a finite chain of blocks whose sizes are of its class. Nothing is said about
backward links, or about what else lies in the arena. -/
structure Chained (arena : Arena) (lists : FreeLists) (chains : Chains) : Prop where
  trail : ∀ bucket, Trail arena (lists.head bucket) (chains bucket)
  classified : ∀ bucket, ∀ offset ∈ chains bucket, Bucket.classify (arena.sizeAt offset) = bucket

namespace Trail

variable {start : Option Block} {members : List Nat}

theorem inside (trail : Trail arena start members) :
    ∀ offset ∈ members, offset + 16 ≤ arena.hi := by
  induction trail with
  | done => simp
  | link read _ ih => exact List.forall_mem_cons.mpr ⟨Block.inside_of_nextFree read, ih⟩

/-- Where a chain leads is fixed by where it starts. -/
theorem unique (trail : Trail arena start members) {others : List Nat}
    (also : Trail arena start others) : members = others := by
  induction trail generalizing others with
  | done => cases also; rfl
  | link read _ ih =>
    cases also with
    | link again further =>
      cases read.symm.trans again
      rw [ih further]

/-- From a member on, a chain goes on as before. -/
theorem tail {before rest : List Nat} {offset : Nat}
    (trail : Trail arena start (before ++ offset :: rest)) :
    Trail arena (some ⟨offset⟩) (offset :: rest) := by
  induction before generalizing start with
  | nil =>
    cases trail with
    | link read further => exact .link read further
  | cons _ _ ih =>
    cases trail with
    | link _ further => exact ih further

/-- A chain that came back to a member would have no end. -/
theorem nodup (trail : Trail arena start members) : members.Nodup := by
  induction trail with
  | done => exact List.nodup_nil
  | @link offset next rest read further ih =>
    refine List.nodup_cons.mpr ⟨fun member => ?_, ih⟩
    obtain ⟨before, after, rfl⟩ := List.append_of_mem member
    have round := (Trail.link read further).unique further.tail
    have length := congrArg List.length round
    simp only [List.length_cons, List.length_append] at length
    omega

theorem length_le (trail : Trail arena start members) : members.length ≤ arena.hi := by
  have subset : members ⊆ List.range arena.hi := by
    intro offset member
    have inside := trail.inside offset member
    rw [List.mem_range]
    omega
  simpa using trail.nodup.length_le_of_subset subset

end Trail

theorem trail_of_place (listed : Listed arena lists chains) (passed members : List Nat)
    (place : chains bucket = passed ++ members) :
    Trail arena (members.head?.map Block.mk) members := by
  induction members generalizing passed with
  | nil => exact .done
  | cons offset rest ih =>
    exact .link (nextFree_of_place listed place) (ih (passed ++ [offset]) (by simp [place]))

/-- Free lists that spell out plain lists are finite chains. -/
theorem chained_of_listed (listed : Listed arena lists chains) : Chained arena lists chains where
  trail bucket := by
    rw [listed.heads]
    exact trail_of_place listed [] (chains bucket) rfl
  classified bucket offset member := (listed.listable bucket offset member).classified

/-! ## The search as a scan -/

/-- The search along a plain list. -/
def scan (size : Nat → Nat) (wanted candidates : Nat) (members : List Nat) (search : Search) :
    Search × Bool :=
  match members with
  | [] => (search, false)
  | offset :: rest =>
    if wanted ≤ size offset then
      if candidates ≤ (search.consider ⟨offset⟩ (size offset)).seen ∨ size offset = wanted then
        (search.consider ⟨offset⟩ (size offset), true)
      else scan size wanted candidates rest (search.consider ⟨offset⟩ (size offset))
    else scan size wanted candidates rest search

def scanAll (size : Nat → Nat) (wanted candidates : Nat) (chains : Chains) (buckets : List Bucket)
    (search : Search) : Search :=
  match buckets with
  | [] => search
  | bucket :: rest =>
    let (search, finished) := scan size wanted candidates (chains bucket) search
    if finished then search else scanAll size wanted candidates chains rest search

theorem searchChain_eq_scan {start : Option Block} {members : List Nat}
    (trail : Trail arena start members) (wanted candidates fuel : Nat) (search : Search)
    (enough : members.length ≤ fuel) :
    searchChain arena wanted candidates fuel start search =
      .ok (scan arena.sizeAt wanted candidates members search) := by
  induction trail generalizing fuel search with
  | done => cases fuel <;> rfl
  | @link offset next rest read further ih =>
    rw [List.length_cons] at enough
    obtain ⟨less, rfl⟩ : ∃ less, fuel = less + 1 := ⟨fuel - 1, by omega⟩
    have inside := Block.inside_of_nextFree read
    have size : (Block.mk offset).size arena = .ok (arena.sizeAt offset) :=
      Block.size_of_le (by omega)
    have goOn (search : Search) := ih less search (by omega)
    rw [searchChain, except_bind_of_ok size, scan]
    by_cases large : wanted ≤ arena.sizeAt offset
    · rw [if_pos large, if_pos large]
      dsimp only
      by_cases ended : candidates ≤ (search.consider ⟨offset⟩ (arena.sizeAt offset)).seen
          ∨ arena.sizeAt offset = wanted
      · rw [if_pos ended, if_pos ended]
        rfl
      · rw [if_neg ended, if_neg ended, except_bind_of_ok read]
        exact goOn _
    · rw [if_neg large, if_neg large, except_bind_of_ok read]
      exact goOn search

theorem searchBuckets_eq_scanAll (chained : Chained arena lists chains) (wanted candidates : Nat)
    (buckets : List Bucket) (search : Search) :
    lists.searchBuckets arena wanted candidates buckets search =
      .ok (scanAll arena.sizeAt wanted candidates chains buckets search) := by
  induction buckets generalizing search with
  | nil => rfl
  | cons bucket rest ih =>
    -- A chain has fewer members than the arena has bytes, so the fuel is not what ends the search.
    have enough : (chains bucket).length ≤ (arena.hi + 1) * (candidates + 1) := by
      have short := (chained.trail bucket).length_le
      calc (chains bucket).length ≤ arena.hi + 1 := by omega
        _ ≤ (arena.hi + 1) * (candidates + 1) := Nat.le_mul_of_pos_right _ (Nat.succ_pos _)
    have scanned := searchChain_eq_scan (chained.trail bucket) wanted candidates _ search enough
    rw [searchBuckets, except_bind_of_ok scanned, scanAll]
    cases scan arena.sizeAt wanted candidates (chains bucket) search with
    | mk found finished =>
      cases finished with
      | true => rfl
      | false => exact ih found

/-- What is found depends on the sizes of the blocks on the list only. -/
theorem scan_congr {size other : Nat → Nat} (wanted candidates : Nat) (members : List Nat)
    (search : Search) (same : ∀ offset ∈ members, other offset = size offset) :
    scan other wanted candidates members search = scan size wanted candidates members search := by
  induction members generalizing search with
  | nil => rfl
  | cons offset rest ih =>
    simp only [List.forall_mem_cons] at same
    simp only [scan, same.1, ih _ same.2]

theorem scanAll_congr {size other : Nat → Nat} (wanted candidates : Nat) (chains : Chains)
    (buckets : List Bucket) (search : Search)
    (same : ∀ bucket, ∀ offset ∈ chains bucket, other offset = size offset) :
    scanAll other wanted candidates chains buckets search =
      scanAll size wanted candidates chains buckets search := by
  induction buckets generalizing search with
  | nil => rfl
  | cons bucket rest ih =>
    simp only [scanAll, scan_congr wanted candidates (chains bucket) search (same bucket), ih]

theorem findFit_congr {after : Arena} {edited : FreeLists} (chained : Chained arena lists chains)
    (also : Chained after edited chains) (wanted candidates : Nat)
    (same : ∀ bucket, ∀ offset ∈ chains bucket, after.sizeAt offset = arena.sizeAt offset) :
    edited.findFit after wanted candidates = lists.findFit arena wanted candidates := by
  simp only [findFit, searchBuckets_eq_scanAll chained, searchBuckets_eq_scanAll also,
    scanAll_congr wanted candidates chains _ _ same]

/-- The search has met some blocks. If it holds one of them then that one is large enough, and if it
holds none then none of them is. -/
def Search.Covers (size : Nat → Nat) (wanted : Nat) (met : List Nat) (search : Search) : Prop :=
  match search.best with
  | none => ∀ offset ∈ met, size offset < wanted
  | some (block, width) =>
    block.offset ∈ met ∧ wanted ≤ size block.offset ∧ width = size block.offset

namespace Search.Covers

variable {size : Nat → Nat} {wanted offset : Nat} {met more : List Nat} {search : Search}

/-- A search that holds a block covers whatever it has not met. -/
theorem append (covers : search.Covers size wanted met) (holds : search.best ≠ none) :
    search.Covers size wanted (met ++ more) := by
  unfold Covers at *
  cases found : search.best with
  | none => exact absurd found holds
  | some best =>
    rw [found] at covers
    exact ⟨List.mem_append_left _ covers.1, covers.2⟩

theorem skip (covers : search.Covers size wanted met) (small : size offset < wanted) :
    search.Covers size wanted (met ++ [offset]) := by
  unfold Covers at *
  cases found : search.best with
  | none =>
    rw [found] at covers
    intro other member
    rcases List.mem_append.mp member with here | here
    · exact covers other here
    · exact List.mem_singleton.mp here ▸ small
  | some best =>
    rw [found] at covers
    exact ⟨List.mem_append_left _ covers.1, covers.2⟩

theorem consider (covers : search.Covers size wanted met) (large : wanted ≤ size offset) :
    (search.consider ⟨offset⟩ (size offset)).Covers size wanted (met ++ [offset])
      ∧ (search.consider ⟨offset⟩ (size offset)).best ≠ none := by
  unfold Covers Search.consider at *
  cases found : search.best with
  | none => exact ⟨⟨by simp, large, rfl⟩, by simp⟩
  | some best =>
    rw [found] at covers
    obtain ⟨block, width⟩ := best
    by_cases closer : size offset < width
    · simp only [closer, if_true]
      exact ⟨⟨by simp, large, trivial⟩, by simp⟩
    · simp only [closer, if_false]
      exact ⟨⟨List.mem_append_left _ covers.1, covers.2⟩, by simp⟩

end Search.Covers

/-- A scan stops early only with a block in hand, so it covers the whole list. -/
theorem scan_covers (size : Nat → Nat) (wanted candidates : Nat) (met members : List Nat)
    (search : Search) (covers : search.Covers size wanted met) :
    (scan size wanted candidates members search).1.Covers size wanted (met ++ members)
      ∧ ((scan size wanted candidates members search).2 = true →
        (scan size wanted candidates members search).1.best ≠ none) := by
  -- The induction is on the blocks still to be met; what has been met is covered already.
  induction members generalizing met search with
  | nil => exact ⟨by simpa [scan] using covers, by simp [scan]⟩
  | cons offset rest ih =>
    rw [List.append_cons, scan]
    by_cases large : wanted ≤ size offset
    · obtain ⟨covers, holds⟩ := covers.consider large
      rw [if_pos large]
      split
      · -- The scan ends here, but what it holds settles the rest of the list too.
        exact ⟨covers.append holds, fun _ => holds⟩
      · exact ih (met ++ [offset]) _ covers
    · rw [if_neg large]
      exact ih (met ++ [offset]) search (covers.skip (by omega))

theorem scanAll_covers (size : Nat → Nat) (wanted candidates : Nat) (chains : Chains)
    (met : List Nat) (buckets : List Bucket) (search : Search)
    (covers : search.Covers size wanted met) :
    (scanAll size wanted candidates chains buckets search).Covers size wanted
      (met ++ buckets.flatMap chains) := by
  induction buckets generalizing met search with
  | nil => simpa [scanAll] using covers
  | cons bucket rest ih =>
    obtain ⟨further, holds⟩ :=
      scan_covers size wanted candidates met (chains bucket) search covers
    rw [List.flatMap_cons, ← List.append_assoc, scanAll]
    split
    next found finished outcome =>
      rw [outcome] at further holds
      split
      next ended => exact further.append (holds ended)
      next => exact ih _ found further

/-- The search ends without a fault. It finds nothing exactly if all listed blocks are too small,
and what it finds is a listed block that is large enough. -/
theorem findFit_spec (chained : Chained arena lists chains) (wanted candidates : Nat) :
    (lists.findFit arena wanted candidates = .ok none
        ∧ ∀ bucket, ∀ offset ∈ chains bucket, arena.sizeAt offset < wanted)
      ∨ ∃ bucket, ∃ offset ∈ chains bucket, wanted ≤ arena.sizeAt offset
        ∧ lists.findFit arena wanted candidates = .ok (some ⟨offset⟩) := by
  have searched := searchBuckets_eq_scanAll chained wanted candidates
    (Bucket.all.filter (Bucket.classify wanted ≤ ·)) .start
  have covers := scanAll_covers arena.sizeAt wanted candidates chains []
    (Bucket.all.filter (Bucket.classify wanted ≤ ·)) .start nofun
  rw [List.nil_append] at covers
  rw [findFit, except_bind_of_ok searched]
  unfold Search.Covers at covers
  split at covers
  next none =>
    left
    refine ⟨by rw [none]; rfl, fun bucket offset member => ?_⟩
    refine Nat.lt_of_not_le fun large => ?_
    have classified := chained.classified bucket offset member
    -- A block that is large enough stands in a class that has been searched.
    have above : Bucket.classify wanted ≤ bucket := by
      rw [← classified]
      exact Bucket.classify_mono _ _ large
    have searched : bucket ∈ Bucket.all.filter (Bucket.classify wanted ≤ ·) :=
      List.mem_filter.mpr ⟨List.mem_finRange bucket, by simpa using above⟩
    have small := covers offset (List.mem_flatMap.mpr ⟨bucket, searched, member⟩)
    omega
  next block width found =>
    right
    obtain ⟨met, large, -⟩ := covers
    obtain ⟨bucket, -, member⟩ := List.mem_flatMap.mp met
    exact ⟨bucket, block.offset, member, large, by rw [found]; rfl⟩

end FreeLists

end BoundaryTag
