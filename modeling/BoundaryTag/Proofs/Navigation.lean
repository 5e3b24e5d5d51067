import BoundaryTag.Proofs.Rows

/-!
# Navigation by boundary tags

The way to the next block is the size in the header. The way back is taken over free blocks only,
and it reads a word whose meaning hangs on a flag that another block keeps: the last word of a free
block is its footer, unless the block is minimal, and then it is its link. So long as the flags tell
the truth the word is never taken for what it is not.
-/
namespace BoundaryTag

open Validator (Entry)

/-- The position holds a link of a listed block or a byte of a live payload. -/
def Heap.Foreign (heap : Heap) (live : List Address) (chains : Chains) (position : Nat) : Prop :=
  (∃ bucket, ∃ offset ∈ chains bucket, heap.arena.LinkSlot offset position)
    ∨ ∃ address ∈ live, ∃ width, heap.usableSize address = .ok width
      ∧ Span address.offset (address.offset + width) position

/-- What leads from a block back to the free block before it. -/
inductive Heap.LeadsBack (heap : Heap) (live : List Address) (chains : Chains)
    (left right : Entry) : Prop
  /-- The flag stands for a minimal block, and it is all that is asked for: in any arena with the
  same header the way back is the same. -/
  | flag (minimal : left.size = 16) (marked : right.header.prevMinimal = true)
      (blind : ∀ arena : Arena,
        arena.readWord right.offset = heap.arena.readWord right.offset →
          (Block.mk right.offset).prev arena = .ok (some ⟨left.offset⟩))
  /-- Without the flag the word before the header is the footer of the block, and none of its bytes
  belongs to a link or to a caller. -/
  | footer (large : 32 ≤ left.size) (unmarked : right.header.prevMinimal = false)
      (stands : heap.arena.readWord (right.offset - 8) = .ok left.header.toWord)
      (own : ∀ position, Span (right.offset - 8) right.offset position →
        ¬heap.Foreign live chains position)

/-- Two blocks are neighbours and lead to each other. -/
structure Heap.Navigates (heap : Heap) (live : List Address) (chains : Chains)
    (left right : Entry) : Prop where
  adjacent : right.offset = left.offset + left.size
  next : (Block.mk left.offset).next heap.arena = .ok ⟨right.offset⟩
  /-- The flag that says whether a way back is needed. -/
  guarded : right.header.prevAllocated = left.header.allocated
  prev : left.IsFree → (Block.mk right.offset).prev heap.arena = .ok (some ⟨left.offset⟩)
  /-- The step back that joins two blocks does not miss its tag. -/
  predecessor : left.IsFree →
    Heap.freePredecessor ⟨right.offset⟩ heap.arena = .ok ⟨left.offset⟩
  leads : left.IsFree → heap.LeadsBack live chains left right

section Steps

variable {arena : Arena}

/-- The footer of the prologue has size zero, so the first block has none before it. -/
theorem Block.prev_of_prologue {entry : Entry}
    (sentinel : (Header.ofWord (arena.word 0)).isSentinel = true)
    (adjoins : Adjoins Entry.prologue entry) (stored : entry.Stored arena)
    (inside : entry.offset + 8 ≤ arena.hi) : (Block.mk entry.offset).prev arena = .ok none := by
  have place : entry.offset = 8 := adjoins.place
  have unmarked : entry.header.prevMinimal = false := adjoins.prevMinimal
  have back : subWord entry.offset wordSize = .ok 0 := by
    rw [place]
    rfl
  have word : arena.readWord 0 = .ok (arena.word 0) := Arena.readWord_of_le arena 0 (by omega)
  have size : (Header.ofWord (arena.word 0)).size = 0 := by
    rw [Header.isSentinel, Bool.and_eq_true, beq_iff_eq] at sentinel
    exact sentinel.1
  rw [Block.prev, except_bind_of_ok (Block.header_of_stored entry stored inside), unmarked,
    if_neg Bool.false_ne_true, except_bind_of_ok back, except_bind_of_ok word, if_pos size]
  rfl

end Steps

variable {heap : Heap} {live : List Address} {layout : Layout} {left right : Entry}

/-- Neither a link nor a byte of a caller stands in the footer of a free block. -/
theorem not_foreign_of_footer (describes : layout.Describes heap.arena heap.lists)
    (members : ∀ address, address ∈ live ↔ Owned (Held layout.blocks) address)
    (here : left ∈ layout.blocks) (free : left.IsFree) (large : 32 ≤ left.size) {position : Nat}
    (inside : Span (left.stop - 8) left.stop position) :
    ¬heap.Foreign live layout.chains position := by
  have tag : left.Tag position := .inr ⟨free, large, inside⟩
  have draft := Draft.of_describes describes
  rintro (⟨bucket, offset, listed, slot⟩ | ⟨address, member, width, usable, payload⟩)
  · obtain ⟨other, -, present, otherFree, real, rfl, -⟩ := draft.exists_of_listed listed
    have apart := (draft.not_tag_of_linkSlot present otherFree real slot).2
    exact apart left (List.mem_append_left _ here) tag
  · obtain ⟨_, _, held, rfl⟩ := (members address).mp member
    cases (Heap.usableSize_of_held describes held).symm.trans usable
    obtain ⟨owner, there, allocated, rfl, rfl⟩ := held
    refine describes.not_tag_of_payload there here ⟨allocated, payload.1, ?_⟩ tag
    have real := describes.tiling.real owner there
    have below : position < owner.offset + 8 + (owner.size - 8) := payload.2
    unfold Entry.stop
    omega

/-- A block and the one behind it lead to each other. -/
theorem navigates_of_adjoins (describes : layout.Describes heap.arena heap.lists)
    (members : ∀ address, address ∈ live ↔ Owned (Held layout.blocks) address)
    (here : left ∈ layout.blocks) (there : right ∈ layout.blocks ++ [heap.arena.epilogue])
    (adjoins : Adjoins left right) : heap.Navigates live layout.chains left right := by
  have draft := Draft.of_describes describes
  have real := describes.tiling.real left here
  have aligned := left.size_mod
  have stored := describes.tiling.stored left here
  have bounds := describes.tiling.bounds here
  have limit := heap.arena.hi_lt
  have rightStored := draft.stored right there
  have high := (draft.high right there).1
  have place := adjoins.place
  have stands : heap.arena.readWord right.offset = .ok right.header.toWord := by
    rw [Arena.readWord_of_le _ _ high, rightStored.header]
  refine ⟨place, ?_, adjoins.prevAllocated, fun free => ?_, fun free => ?_, fun free => ?_⟩
  · rw [place]
    refine Block.next_of_stored left stored ?_ (by omega) (by omega)
    unfold Entry.stop at bounds
    omega
  · exact Block.prev_of_stored left right stored rightStored free real place.symm high
      adjoins.prevMinimal
  · exact Heap.freePredecessor_of_stored left right stored rightStored free real place.symm high
      adjoins.prevMinimal
  · by_cases minimal : left.size = 16
    · have marked : right.header.prevMinimal = true := by simp [adjoins.prevMinimal, minimal]
      exact .flag minimal marked fun arena same =>
        Block.prev_of_prevMinimal minimal place marked (same.trans stands)
    · have large : 32 ≤ left.size := by omega
      refine .footer large (by simp [adjoins.prevMinimal, minimal]) ?_ ?_
      · rw [place, Arena.readWord_of_le _ _ (by omega), stored.footer free large]
      · rw [place]
        exact fun position => not_foreign_of_footer describes members here free large

/-- Each block of a described heap and the one behind it lead to each other. -/
theorem chain_navigates (describes : layout.Describes heap.arena heap.lists)
    (members : ∀ address, address ∈ live ↔ Owned (Held layout.blocks) address) :
    (layout.blocks ++ [heap.arena.epilogue]).IsChain (heap.Navigates live layout.chains) := by
  have draft := Draft.of_describes describes
  have adjoining : (layout.blocks ++ [heap.arena.epilogue]).IsChain Adjoins :=
    describes.tiling.chain.tail
  rw [List.isChain_iff_forall_rel_of_append_cons_cons] at adjoining ⊢
  intro left right fore aft split
  have present : left ∈ layout.blocks ++ [heap.arena.epilogue] := by simp [split]
  have there : right ∈ layout.blocks ++ [heap.arena.epilogue] := by simp [split]
  -- The epilogue has size zero, so it is ahead of nothing.
  have ordered := draft.ordered
  rw [split] at ordered
  have ahead : left.Ahead right :=
    (List.pairwise_cons.mp (List.pairwise_append.mp ordered).2.1).1 right (by simp)
  have here : left ∈ layout.blocks := by
    rcases List.mem_append.mp present with here | last
    · exact here
    · obtain ⟨size, -⟩ := Entry.of_sentinel describes.tiling.epilogue
      rw [← List.mem_singleton.mp last] at size
      exact absurd ahead.2 (by omega)
  exact navigates_of_adjoins describes members here there (adjoining split)

/-- In a reachable heap any two neighbours lead to each other, the epilogue being the last block,
and before the first block there is none. -/
theorem blocks_navigate (reachable : Reachable heap live) :
    ∃ (first : Entry) (rest : List Entry) (chains : Chains),
      heap.Shows (first :: rest) chains ∧ rest ≠ []
        ∧ (first :: rest).IsChain (heap.Navigates live chains)
        ∧ first.offset = 8 ∧ Block.first.prev heap.arena = .ok none := by
  obtain ⟨-, -, layout, describes, members⟩ := reachable.sound
  have shows := Heap.shows_of_describes describes
  have chain := chain_navigates describes members
  obtain ⟨blocks, chains⟩ := layout
  cases blocks with
  | nil =>
    -- The first chunk is there from the start, so a heap has a block.
    have floor := reachable.floor
    have empty : heap.arena.hi - 8 = 8 :=
      (List.isChain_pair.mp describes.tiling.chain).place
    have real := reachable.sound.roomy.real
    omega
  | cons first others =>
    have adjoins : Adjoins Entry.prologue first :=
      (List.isChain_cons_cons.mp describes.tiling.chain).1
    have place : first.offset = 8 := adjoins.place
    have draft := Draft.of_describes describes
    have prev := Block.prev_of_prologue describes.tiling.prologue adjoins
      (draft.stored first (by simp)) (draft.high first (by simp)).1
    rw [place] at prev
    exact ⟨first, others ++ [heap.arena.epilogue], chains, shows, by simp, chain, place, prev⟩

/-- In a heap that has just been built the free chunk and the epilogue lead to each other. -/
theorem blocks_navigate_of_fresh : ∃ heap : Heap, Reachable heap []
    ∧ (Block.mk 8).next heap.arena = .ok ⟨4104⟩ ∧ (Block.mk 4104).prev heap.arena = .ok (some ⟨8⟩)
    ∧ Block.first.prev heap.arena = .ok none := by
  obtain ⟨heap, reachable, -, -, top⟩ := exists_fresh
  obtain ⟨-, -, layout, describes, members⟩ := reachable.sound
  have none (offset size : Nat) : ¬Held layout.blocks offset size := fun held =>
    List.not_mem_nil ((members ⟨offset + 8⟩).mpr ⟨offset, size, held, rfl⟩)
  obtain ⟨view, walk, outline⟩ := Heap.blocks_of_unheld describes (by omega) none
  obtain ⟨first, rest, chains, shows, -, chain, -, prev⟩ := blocks_navigate reachable
  -- There is one block, and its header says that it is free.
  obtain ⟨row, split, read⟩ := shows.blocks
  obtain ⟨entry, rfl, rfl⟩ : ∃ entry, row = [entry] ∧ entry.view heap.arena = view :=
    List.map_eq_singleton_iff.mp (Except.ok.inj (read.symm.trans walk))
  rw [Entry.outline_view, Entry.outline, top] at outline
  obtain ⟨offset, -, free, -, -⟩ := Outline.mk.inj outline
  rw [split] at chain
  have navigates := List.isChain_pair.mp chain
  have ends : heap.arena.epilogue.offset = 4104 := by rw [Arena.epilogue, top]
  have onward := navigates.next
  have back := navigates.prev free
  rw [offset, ends] at onward back
  exact ⟨heap, reachable, onward, back, prev⟩

end BoundaryTag
