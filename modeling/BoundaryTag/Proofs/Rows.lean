import BoundaryTag.Proofs.Canonical

/-!
# What a release and a placement do to the row of blocks

A heap shows a row of blocks from the first one to the epilogue, and on fifteen lists the free ones
among them. A release puts one free block in the place of a block and its free neighbours, and a
placement puts an allocated block and what is left in the place of a free block. The block behind
records it. All other blocks keep their headers and all other members of the lists their order.
-/
namespace BoundaryTag

open Validator (Entry)

/-- The heap consists of these blocks, of which the last one is the epilogue, and its buckets have
these members. -/
structure Heap.Shows (heap : Heap) (row : List Entry) (chains : Chains) : Prop where
  blocks : ∃ blocks, row = blocks ++ [heap.arena.epilogue]
    ∧ heap.blocks = .ok (blocks.map (·.view heap.arena))
  headers : ∀ entry ∈ row, heap.arena.readWord entry.offset = .ok entry.header.toWord
  members : ∀ bucket, heap.lists.members heap.arena bucket = .ok ((chains bucket).map Block.mk)

section Row

variable {heap : Heap} {layout : Layout}

theorem Heap.shows_of_describes (describes : layout.Describes heap.arena heap.lists) :
    heap.Shows (layout.blocks ++ [heap.arena.epilogue]) layout.chains := by
  have draft := Draft.of_describes describes
  refine ⟨⟨_, rfl, blocks_of_describes describes⟩, fun entry member => ?_, describes.members⟩
  rw [Arena.readWord_of_le _ _ (draft.high entry member).1, (draft.stored entry member).header]

/-- A free block is on the list of its class. -/
theorem Layout.Describes.listed_of_free {entry : Entry}
    (describes : layout.Describes heap.arena heap.lists) (member : entry ∈ layout.blocks)
    (free : entry.IsFree) : entry.offset ∈ layout.chains (Bucket.classify entry.size) :=
  (describes.listing.members _ _).mpr ⟨entry, member, free, rfl, rfl⟩

end Row

variable {heap : Heap} {live : List Address}

/-! ## Release -/

theorem merged_freeing (before : Option Entry) (block next : Entry) :
    merged before block.freeing next = merged before block next := by
  cases before <;> rfl

/-- The free neighbours of a block are on the lists of their classes. -/
theorem listed_of_joint {layout : Layout} {fore aft left right : List Entry}
    {before behind : Option Entry} {block freed next : Entry}
    (describes : layout.Describes heap.arena heap.lists)
    (split : layout.blocks = fore ++ block :: aft) (foreEq : fore = left ++ before.toList)
    (aftEq : aft ++ [heap.arena.epilogue] = behind.toList ++ next :: right)
    (joint : Joint before freed behind next) :
    ∀ part ∈ before.toList ++ behind.toList,
      part.IsFree ∧ part.offset ∈ layout.chains (Bucket.classify part.size) := by
  intro part member
  have free : part.IsFree := by
    rcases List.mem_append.mp member with here | here
    · exact (joint.before_free part (Option.mem_toList.mp here)).1
    · exact (joint.behind_free part (Option.mem_toList.mp here)).1
  -- The epilogue is not free, so a free neighbour is one of the blocks.
  obtain ⟨-, closed⟩ := Entry.of_sentinel describes.tiling.epilogue
  have there : part ∈ fore ∨ part ∈ aft ++ [heap.arena.epilogue] := by
    rw [foreEq, aftEq]
    exact (List.mem_append.mp member).imp (List.mem_append_right _) (List.mem_append_left _)
  rw [mem_iff_of_last_taken closed free] at there
  have present : part ∈ layout.blocks := by
    rw [split, List.mem_append, List.mem_cons]
    exact there.imp_right .inr
  exact ⟨free, describes.listed_of_free present free⟩

/-- A release puts one free block in the place of the block of the payload, of the free block right
before it and of the free block right behind it. -/
theorem release_joins {address : Address} (reachable : Reachable heap live)
    (member : address ∈ live) :
    ∃ (after : Heap) (left : List Entry) (before : Option Entry) (block : Entry)
      (behind : Option Entry) (next : Entry) (right : List Entry) (chains : Chains),
      Heap.release address heap = .ok () after ∧ after.arena.hi = heap.arena.hi
        ∧ address = ⟨block.offset + 8⟩ ∧ block.header.allocated = true
        ∧ before = lastFree (left ++ before.toList)
        ∧ behind = firstFree (behind.toList ++ next :: right) ∧ next.header.allocated = true
        ∧ (∀ part ∈ before.toList ++ behind.toList,
          part.IsFree ∧ part.offset ∈ chains (Bucket.classify part.size))
        ∧ heap.Shows (left ++ before.toList ++ block :: (behind.toList ++ next :: right)) chains
        ∧ after.Shows
          (left ++ merged before block next ::
            next.recording false ((merged before block next).size == 16) :: right)
          ((chains.dropAll ((before.toList ++ behind.toList).map (·.offset))).push
            (Bucket.classify (merged before block next).size) (merged before block next).offset)
        ∧ (merged before block next).stop = next.offset
        ∧ (merged before block next).size =
          before.elim 0 Entry.size + block.size + behind.elim 0 Entry.size := by
  obtain ⟨-, -, layout, describes, members⟩ := reachable.sound
  obtain ⟨_, _, ⟨block, present, allocated, rfl, rfl⟩, rfl⟩ := (members address).mp member
  obtain ⟨fore, aft, split⟩ := List.append_of_mem present
  obtain ⟨⟨⟩, after, run, others, described, -, lists, joined, frees, -⟩ :=
    Heap.release_returns describes split allocated
  obtain ⟨left, before, behind, next, right, foreEq, last, aftEq, first, joint, row⟩ := joined
  obtain ⟨-, closed⟩ := Entry.of_sentinel describes.tiling.epilogue
  have shows := Heap.shows_of_describes describes
  have becomes := Heap.shows_of_describes described
  have joining := Chains.joining_of_joint joint last (first.trans (firstFree_concat closed))
    layout.chains
  have stop := stop_merged joint
  have size := size_merged joint
  rw [merged_freeing] at row joining stop size
  rw [row, lists.trans joining] at becomes
  have parts := listed_of_joint describes split foreEq aftEq joint
  refine ⟨after, left, before, block, behind, next, right, layout.chains, run, frees.confined.hi,
    rfl, allocated, foreEq ▸ last, aftEq ▸ first, joint.taken, parts, ?_, becomes, stop, size⟩
  rw [← aftEq, ← foreEq]
  simpa [split] using shows

/-- How many blocks there are before and after the second of two payloads is released. -/
def Heap.countsOfTwo : HeapM (Nat × Nat) := do
  let _ ← build
  let _ ← allocate 24
  match ← allocate 40 with
  | .error _ => return (0, 0)
  | .ok second =>
    let before ← reading blocks
    release second
    let after ← reading blocks
    return (before.length, after.length)

theorem Heap.countsOfTwo_eq {start empty one two after : Heap} {first second : Address}
    {row others : List BlockView} (builds : build start = .ok (.ok ()) empty)
    (run : allocate 24 empty = .ok (.ok first) one)
    (rerun : allocate 40 one = .ok (.ok second) two) (shows : two.blocks = .ok row)
    (releases : release second two = .ok () after) (becomes : after.blocks = .ok others) :
    countsOfTwo start = .ok (row.length, others.length) after := by
  rw [countsOfTwo, bind_of_ok builds, bind_of_ok run, bind_of_ok rerun]
  simp only
  rw [bind_of_ok (reading_of_ok shows), bind_of_ok releases, bind_of_ok (reading_of_ok becomes)]
  rfl

/-- The second of two payloads is released, with the free rest of the heap behind it. -/
theorem release_joins_of_two : ∃ (heap after : Heap) (first second : Address) (left : List Entry)
    (before : Option Entry) (block : Entry) (behind : Option Entry) (next : Entry)
    (right : List Entry) (chains edited : Chains), Reachable heap [second, first]
      ∧ heap.Shows (left ++ before.toList ++ block :: (behind.toList ++ next :: right)) chains
      ∧ Heap.release second heap = .ok () after
      ∧ after.Shows (left ++ merged before block next ::
        next.recording false ((merged before block next).size == 16) :: right) edited
      ∧ before.toList.length + behind.toList.length = 1 := by
  have roomy : (Heap.unbuilt (.buffer 512) { chunkSize := 96 }).Roomy := by constructor <;> decide
  have counts : (match Heap.countsOfTwo (.unbuilt (.buffer 512) { chunkSize := 96 }) with
      | .ok counts _ => counts
      | .error _ _ => (0, 0)) = (3, 2) := by decide +kernel
  obtain ⟨empty, built, -, top, tuned, capacity, -⟩ := Heap.new_of_roomy rfl roomy
  have chunk : empty.config.chunkSize = 96 := by rw [tuned]; rfl
  have size : empty.arena.hi = 112 ∧ empty.arena.capacity = 512 := ⟨top, capacity⟩
  have sizes : max (blockSize 24) 96 = 96 ∧ max (blockSize 40) 96 = 96 := by decide
  have limit : 512 ≤ Arena.bufferLimit := by decide
  obtain ⟨first, one, run, reachable, kept, same, higher⟩ :=
    (Reachable.built built).allocate 24 (by decide) (by omega) (by omega)
  have again : one.config.chunkSize = 96 := by rw [kept, chunk]
  obtain ⟨second, two, rerun, further, -⟩ :=
    reachable.allocate 40 (by decide) (by omega) (by omega)
  obtain ⟨after, left, before, block, behind, next, right, chains, released, -, -, -, -, -, -, -,
    shows, becomes, -, -⟩ := release_joins further (show second ∈ [second, first] by simp)
  refine ⟨two, after, first, second, left, before, block, behind, next, right, chains, _, further,
    shows, released, becomes, ?_⟩
  obtain ⟨blocks, row, listed⟩ := shows.blocks
  obtain ⟨others, otherRow, relisted⟩ := becomes.blocks
  -- The run that is counted is the run above. It loses a block, and that is the free one.
  have builds := Heap.new_eq_ok_iff.mp built
  rw [Heap.countsOfTwo_eq builds run rerun listed released relisted] at counts
  obtain ⟨three, two⟩ := Prod.mk.inj counts
  have lengths := congrArg List.length row
  have otherLengths := congrArg List.length otherRow
  simp only [List.length_append, List.length_cons, List.length_nil, List.length_map] at *
  omega

/-! ## Placement -/

theorem Chains.cutting_eq (chains : Chains) {entry : Entry} {wanted : Nat}
    (aligned : wanted % 16 = 0) :
    chains.cutting entry wanted =
      (entry.remainder wanted).elim (chains.drop entry.offset) fun rest =>
        (chains.drop entry.offset).push (Bucket.classify rest.size) rest.offset := by
  have multiple := entry.size_mod
  unfold cutting Entry.remainder
  rw [minBlockSize_eq]
  by_cases more : wanted < entry.size
  · rw [if_pos more, if_pos (by omega), Option.elim_some, entry.size_leaving aligned]
    rfl
  · rw [if_neg more, if_neg (by omega), Option.elim_none]

/-- An allocation for which the search finds a free block puts an allocated block in its place and,
behind it, a free block of what is left. -/
theorem allocate_cuts {size wanted : Nat} {block : Block} (reachable : Reachable heap live)
    (positive : 1 ≤ size) (adjusts : Heap.adjustedSize size = .ok (.ok wanted))
    (found : heap.lists.findFit heap.arena wanted heap.config.fitCandidates = .ok (some block)) :
    ∃ (after : Heap) (left : List Entry) (fit next : Entry) (right : List Entry)
      (chains : Chains),
      Heap.allocate size heap = .ok (.ok ⟨block.offset + 8⟩) after
        ∧ after.arena.hi = heap.arena.hi
        ∧ fit.offset = block.offset ∧ fit.IsFree ∧ wanted ≤ fit.size
        ∧ fit.offset ∈ chains (Bucket.classify fit.size)
        ∧ heap.Shows (left ++ fit :: next :: right) chains
        ∧ after.Shows
          (left ++ fit.taking wanted :: ((fit.remainder wanted).toList ++
            next.recording (fit.remainder wanted).isNone
              (((fit.remainder wanted).getD (fit.taking wanted)).size == 16) :: right))
          ((fit.remainder wanted).elim (chains.drop fit.offset) fun rest =>
            (chains.drop fit.offset).push (Bucket.classify rest.size) rest.offset)
        ∧ (fit.taking wanted).size = wanted
        ∧ ∀ rest ∈ fit.remainder wanted, rest.size = fit.size - wanted := by
  obtain ⟨-, -, layout, describes, -⟩ := reachable.sound
  obtain ⟨fits, rfl⟩ := Heap.le_of_adjustedSize positive adjusts
  have aligned := blockSize_mod size
  -- The block that is found is one of the free blocks.
  rcases Heap.findFit_of_describes describes (blockSize size) with
    ⟨none, -⟩ | ⟨fit, member, free, large, answer⟩
  · cases found.symm.trans none
  obtain rfl : block = ⟨fit.offset⟩ := by cases found.symm.trans answer; rfl
  obtain ⟨_, after, run, rfl, same, ⟨others, described, lists, cut, -⟩, -⟩ :=
    Heap.serve_returns size describes member free aligned (blockSize_real positive) large
  obtain ⟨left, next, right, row, others_row⟩ := cut
  have shows := Heap.shows_of_describes describes
  have becomes := Heap.shows_of_describes described
  rw [row] at shows
  rw [others_row, lists.trans (Chains.cutting_eq _ aligned)] at becomes
  refine ⟨after, left, fit, next, right, layout.chains, ?_, same, rfl, free, large,
    describes.listed_of_free member free, shows, becomes, fit.size_taking aligned, ?_⟩
  · rw [Heap.allocate_eq ⟨layout, describes⟩ positive fits,
      bind_of_ok (Heap.findBlock_of_found found)]
    exact run
  · intro rest part
    obtain ⟨-, same⟩ := Option.ite_none_right_eq_some.mp part
    cases same
    exact fit.size_leaving aligned

/-- A heap that has just been built has a free block for a small request. -/
theorem exists_fit : ∃ (heap : Heap) (block : Block), Reachable heap []
    ∧ heap.lists.findFit heap.arena 112 heap.config.fitCandidates = .ok (some block) := by
  obtain ⟨heap, reachable, -, -, top⟩ := exists_fresh
  obtain ⟨-, -, layout, describes, members⟩ := reachable.sound
  have none (offset size : Nat) : ¬Held layout.blocks offset size := fun held =>
    List.not_mem_nil ((members ⟨offset + 8⟩).mpr ⟨offset, size, held, rfl⟩)
  have start : Entry.prologue.stop = 8 := rfl
  rcases describes.tiling.fills.eq_of_unheld none with
    ⟨-, ended⟩ | ⟨entry, single, adjoins, free, stop⟩
  · omega
  have large : 112 ≤ entry.size := by
    have place := adjoins.place
    unfold Entry.stop at stop
    omega
  rcases Heap.findFit_of_describes describes 112 with ⟨-, refuses⟩ | ⟨fit, -, -, -, found⟩
  · exact absurd ⟨entry, by simp [single], free, large⟩ refuses
  · exact ⟨heap, ⟨fit.offset⟩, reachable, found⟩

/-- A request for 100 bytes takes 112 of the block that is found. -/
theorem allocate_cuts_of_fit : ∃ (heap after : Heap) (block : Block) (row others : List Entry)
    (chains edited : Chains), Reachable heap [] ∧ heap.Shows row chains
      ∧ Heap.allocate 100 heap = .ok (.ok ⟨block.offset + 8⟩) after
      ∧ after.Shows others edited := by
  obtain ⟨heap, block, reachable, found⟩ := exists_fit
  obtain ⟨after, _, _, _, _, _, run, -, -, -, -, -, shows, becomes, -, -⟩ :=
    allocate_cuts reachable (show 1 ≤ 100 by decide) (show Heap.adjustedSize 100 = _ from rfl) found
  exact ⟨heap, after, block, _, _, _, _, reachable, shows, run, becomes⟩

end BoundaryTag
