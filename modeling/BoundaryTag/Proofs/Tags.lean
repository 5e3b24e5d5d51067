import BoundaryTag.Proofs.Memory

/-!
# Boundary tags

An entry is *stored* when its header, and its footer if it is a free block with room for one, stand
where they belong. Operations on blocks read stored entries as their headers say, and write entries
that are stored from then on. Neither needs to know whether the flags of a header tell the truth, so
the lemmas also serve between two writes that restore the heap together.
-/
namespace BoundaryTag

namespace Validator.Entry

/-- The size of the block. -/
def size (entry : Entry) : Nat := entry.header.size

/-- One past the last byte of the block. -/
def stop (entry : Entry) : Nat := entry.offset + entry.size

/-- The block is free. -/
def IsFree (entry : Entry) : Prop := entry.header.allocated = false

instance (entry : Entry) : Decidable entry.IsFree :=
  inferInstanceAs (Decidable (_ = _))

/-- The bytes of the header and of the footer of a free block that has one. -/
def Tag (entry : Entry) (position : Nat) : Prop :=
  Span entry.offset (entry.offset + 8) position
    ∨ entry.IsFree ∧ 32 ≤ entry.size ∧ Span (entry.stop - 8) entry.stop position

/-- The header stands at the offset and, if the block has a footer, at its end again. -/
structure Stored (arena : Arena) (entry : Entry) : Prop where
  header : arena.word entry.offset = entry.header.toWord
  footer : entry.IsFree → 32 ≤ entry.size → arena.word (entry.stop - 8) = entry.header.toWord

/-- The entry of a block, from its size and its flags. -/
def make (offset size : Nat) (allocated prevAllocated prevMinimal : Bool) : Entry :=
  ⟨offset, { units := size / 16, allocated, prevAllocated, prevMinimal }⟩

/-- The entry after the state of the block before has been recorded in it. -/
def recording (entry : Entry) (prevAllocated prevMinimal : Bool) : Entry :=
  ⟨entry.offset, (entry.header.withPrevAllocated prevAllocated).withPrevMinimal prevMinimal⟩

theorem size_mod (entry : Entry) : entry.size % 16 = 0 :=
  entry.header.size_mod

theorem size_make (offset size : Nat) (allocated prevAllocated prevMinimal : Bool)
    (aligned : size % 16 = 0) :
    (make offset size allocated prevAllocated prevMinimal).size = size := by
  have units : size / 16 * 16 = size := by omega
  exact units

theorem stop_make (offset size : Nat) (allocated prevAllocated prevMinimal : Bool)
    (aligned : size % 16 = 0) :
    (make offset size allocated prevAllocated prevMinimal).stop = offset + size := by
  rw [stop, size_make _ _ _ _ _ aligned]
  rfl

theorem not_free_of_allocated {entry : Entry} (taken : entry.header.allocated = true) :
    ¬entry.IsFree :=
  fun free => absurd (taken.symm.trans free) (by decide)

theorem of_sentinel {entry : Entry} (sentinel : entry.header.isSentinel = true) :
    entry.size = 0 ∧ ¬entry.IsFree := by
  rw [Header.isSentinel, Bool.and_eq_true, beq_iff_eq] at sentinel
  exact ⟨sentinel.1, not_free_of_allocated sentinel.2⟩

/-- A stored entry stays stored while its tags are left alone. -/
theorem Stored.confined {touched : Nat → Prop} {before after : Arena} {entry : Entry}
    (stored : entry.Stored before) (confined : Arena.Confined touched before after)
    (away : ∀ position, entry.Tag position → ¬touched position) : entry.Stored after where
  header := by
    rw [confined.word entry.offset fun position inside => away position (.inl inside)]
    exact stored.header
  footer free large := by
    have place : entry.stop - 8 + 8 = entry.stop := by
      unfold stop
      omega
    have same : after.word (entry.stop - 8) = before.word (entry.stop - 8) := by
      apply confined.word
      rw [place]
      exact fun position inside => away position (.inr ⟨free, large, inside⟩)
    rw [same]
    exact stored.footer free large

/-- The header of a stored block is idle when the block is free. -/
theorem Stored.idle_iff {arena : Arena} {entry : Entry} (stored : entry.Stored arena) :
    arena.Idle entry.offset ↔ entry.IsFree := by
  rw [Arena.Idle, stored.header, Header.ofWord_toWord]
  rfl

/-- Writing the tags of a block makes no other word busy, and not its own when the block is free or
was allocated before. -/
theorem Stored.staysIdle {before after : Arena} {entry : Entry} (stored : entry.Stored after)
    (confined : Arena.Confined entry.Tag before after) (aligned : entry.offset % 16 = 8)
    (calm : entry.IsFree ∨ ¬before.Idle entry.offset) : before.StaysIdle after := by
  intro offset place idle
  by_cases same : offset = entry.offset
  · subst same
    exact stored.idle_iff.mpr (calm.resolve_right fun busy => busy idle)
  · -- A footer ends where a block does, so it stands where no header can.
    have width := entry.size_mod
    refine idle.confined confined fun position inside tag => ?_
    unfold Tag stop Span at *
    omega

end Validator.Entry

namespace Block

open Validator (Entry)

variable {arena : Arena}

theorem header_of_stored (entry : Entry) (stored : entry.Stored arena)
    (inside : entry.offset + 8 ≤ arena.hi) :
    (Block.mk entry.offset).header arena = .ok entry.header := by
  rw [header, Arena.readWord_of_le arena entry.offset inside, stored.header]
  simp [Functor.map, Except.map]

theorem size_of_stored (entry : Entry) (stored : entry.Stored arena)
    (inside : entry.offset + 8 ≤ arena.hi) :
    (Block.mk entry.offset).size arena = .ok entry.size := by
  rw [size, header_of_stored entry stored inside]
  rfl

theorem after_of_lt {offset size : Nat} (below : offset + size < wordLimit) :
    (Block.mk offset).after size = .ok ⟨offset + size⟩ := by
  rw [after, addWord_of_lt offset size below]
  rfl

theorem footer_of_lt {offset size : Nat} (below : offset + size < wordLimit)
    (real : 8 ≤ offset + size) : (Block.mk offset).footer size = .ok (offset + size - 8) := by
  rw [footer, except_bind_of_ok (addWord_of_lt offset size below)]
  exact subWord_of_le (offset + size) 8 real

theorem ofPayload_add (offset : Nat) : ofPayload (offset + 8) = .ok ⟨offset⟩ := by
  rw [ofPayload, wordSize_eq, subWord_of_le _ _ (Nat.le_add_left 8 offset), Nat.add_sub_cancel]
  rfl

/-- A block that is not the epilogue is followed by the block at its end. -/
theorem next_of_stored (entry : Entry) (stored : entry.Stored arena)
    (inside : entry.offset + 8 ≤ arena.hi) (real : 0 < entry.size)
    (below : entry.stop < wordLimit) :
    (Block.mk entry.offset).next arena = .ok ⟨entry.stop⟩ := by
  have nonzero : (entry.size != 0) = true := by simp; omega
  have ends : (Block.mk entry.offset).after entry.size = .ok ⟨entry.stop⟩ := after_of_lt below
  rw [next, except_bind_of_ok (size_of_stored entry stored inside),
    except_bind_of_ok (ensure_of_true _ nonzero), ends]

/-- Behind a minimal block the way back depends on the header only. -/
theorem prev_of_prevMinimal {left right : Entry} (minimal : left.size = 16)
    (place : right.offset = left.offset + left.size) (marked : right.header.prevMinimal = true)
    (stands : arena.readWord right.offset = .ok right.header.toWord) :
    (Block.mk right.offset).prev arena = .ok (some ⟨left.offset⟩) := by
  have read : (Block.mk right.offset).header arena = .ok right.header := by
    rw [header, stands]
    simp [Functor.map, Except.map]
  have back : subWord right.offset minBlockSize = .ok left.offset := by
    rw [minBlockSize_eq, subWord_of_le _ _ (by omega), place, minimal, Nat.add_sub_cancel]
  rw [prev, except_bind_of_ok read, if_pos marked, except_bind_of_ok back]
  rfl

/-- A free block is found again from the block behind it, by the flag if it is minimal and by its
footer otherwise. -/
theorem prev_of_stored (left entry : Entry) (leftStored : left.Stored arena)
    (stored : entry.Stored arena) (free : left.IsFree) (real : 16 ≤ left.size)
    (meets : left.stop = entry.offset) (inside : entry.offset + 8 ≤ arena.hi)
    (flag : entry.header.prevMinimal = (left.size == 16)) :
    (Block.mk entry.offset).prev arena = .ok (some ⟨left.offset⟩) := by
  have start : entry.offset - left.size = left.offset := by
    rw [← meets, Entry.stop]
    omega
  have aligned := left.size_mod
  rw [Entry.stop] at meets
  -- Without a footer there is the flag, and without the flag there is a footer.
  by_cases minimal : left.size = 16
  · refine prev_of_prevMinimal minimal meets.symm (by simp [flag, minimal]) ?_
    rw [Arena.readWord_of_le _ _ inside, stored.header]
  · rw [prev, except_bind_of_ok (header_of_stored entry stored inside), flag]
    have place : subWord entry.offset 8 = .ok (left.stop - 8) := by
      rw [subWord_of_le _ _ (by omega), ← meets, Entry.stop]
    have footer := leftStored.footer free (by omega)
    have read : arena.readWord (left.stop - 8) = .ok left.header.toWord := by
      rw [← footer]
      apply Arena.readWord_of_le
      rw [Entry.stop]
      omega
    have nonzero : left.header.size ≠ 0 := by
      change left.size ≠ 0
      omega
    have back : subWord entry.offset left.header.size = .ok left.offset := by
      rw [← start]
      exact subWord_of_le _ _ (by change left.size ≤ _; omega)
    simp [minimal, place, read, nonzero, back, bind, Except.bind, pure, Except.pure]

/-- Writing tags stores the entry and changes nothing but them. -/
theorem setTags_returns (entry : Entry) (inside : entry.offset + 8 ≤ arena.hi)
    (room : entry.IsFree → entry.stop ≤ arena.hi) (fits : entry.size < wordLimit) :
    Returns ((Block.mk entry.offset).setTags entry.header) arena fun _ after =>
      Arena.Confined entry.Tag arena after ∧ entry.Stored after := by
  have word := entry.header.toWord_lt fits
  have written := Arena.writeWord_returns arena entry.offset entry.header.toWord inside word
  refine written.bind ?_
  rintro ⟨⟩ middle ⟨confined, header⟩
  by_cases footed : entry.IsFree ∧ 32 ≤ entry.size
  · obtain ⟨free, large⟩ := footed
    have stops := room free
    have place : (Block.mk entry.offset).footer entry.header.size = .ok (entry.stop - 8) :=
      footer_of_lt (Nat.lt_of_le_of_lt stops arena.hi_lt)
        (Nat.le_trans (Nat.le_trans (by decide) large) (Nat.le_add_left _ _))
    have bounds : entry.stop - 8 + 8 = entry.stop ∧ entry.offset + 8 ≤ entry.stop - 8 := by
      rw [Entry.stop]
      omega
    rw [if_pos (by simpa using ⟨free, large⟩)]
    refine Returns.step (lift_of_ok place) ?_
    have again := Arena.writeWord_returns middle (entry.stop - 8) entry.header.toWord
      (by rw [confined.hi, bounds.1]; exact stops) word
    refine again.mono ?_
    rintro ⟨⟩ after ⟨rest, footer⟩
    rw [bounds.1] at rest
    refine ⟨(confined.mono fun _ => .inl).trans
      (rest.mono fun _ inside => .inr ⟨free, large, inside⟩), ?_, fun _ _ => footer⟩
    -- The footer starts behind the header, so the header still stands.
    rw [rest.word, header]
    intro position low high
    have first := low.2
    have second := high.1
    omega
  · rw [if_neg (by simpa [Entry.IsFree, Entry.size] using footed)]
    refine Returns.pure ⟨confined.mono fun _ => .inl, header, fun free large => ?_⟩
    exact absurd ⟨free, large⟩ footed

theorem writeFree_returns (entry : Entry) (free : entry.IsFree)
    (clean : entry.header.reserved = false) (inside : entry.offset + 8 ≤ arena.hi)
    (room : entry.stop ≤ arena.hi) (fits : entry.size < wordLimit) :
    Returns ((Block.mk entry.offset).writeFree entry.size entry.header.prevAllocated
      entry.header.prevMinimal) arena fun _ after =>
        Arena.Confined entry.Tag arena after ∧ entry.Stored after := by
  have packed := entry.header.pack_of_clean clean
  rw [free] at packed
  refine Returns.step (lift_of_ok packed) ?_
  exact setTags_returns entry inside (fun _ => room) fits

theorem writeAllocated_returns (entry : Entry) (taken : entry.header.allocated = true)
    (clean : entry.header.reserved = false) (inside : entry.offset + 8 ≤ arena.hi)
    (fits : entry.size < wordLimit) :
    Returns ((Block.mk entry.offset).writeAllocated entry.size entry.header.prevAllocated
      entry.header.prevMinimal) arena fun _ after =>
        Arena.Confined entry.Tag arena after ∧ entry.Stored after := by
  have packed := entry.header.pack_of_clean clean
  rw [taken] at packed
  refine Returns.step (lift_of_ok packed) ?_
  refine setTags_returns entry inside (fun free => ?_) fits
  exact absurd free (Entry.not_free_of_allocated taken)

theorem setPrevStatus_returns (entry : Entry) (prevAllocated prevMinimal : Bool)
    (stored : entry.Stored arena) (inside : entry.offset + 8 ≤ arena.hi)
    (room : entry.IsFree → entry.stop ≤ arena.hi) (fits : entry.size < wordLimit) :
    Returns ((Block.mk entry.offset).setPrevStatus prevAllocated prevMinimal) arena fun _ after =>
      Arena.Confined (entry.recording prevAllocated prevMinimal).Tag arena after ∧
        (entry.recording prevAllocated prevMinimal).Stored after := by
  have read := header_of_stored entry stored inside
  refine Returns.step (reading_of_ok read) ?_
  exact setTags_returns (entry.recording prevAllocated prevMinimal) inside room fits

end Block

end BoundaryTag
