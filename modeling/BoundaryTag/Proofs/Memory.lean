import BoundaryTag.Proofs.Encoding
import BoundaryTag.Proofs.Execution

/-!
# Words of an arena and what writes leave alone

Every statement about a write has two halves: what stands in the bytes that were written, and that
all other bytes stay. The second half is `Confined`, which names the positions that may have
changed; confined changes compose, and a word away from those positions reads as before.
-/
namespace BoundaryTag

/-- A position from `start` on and before `stop`. -/
def Span (start stop position : Nat) : Prop :=
  start ≤ position ∧ position < stop

namespace Arena

/-- The word at an offset, also above the break. -/
@[irreducible]
def word (arena : Arena) (offset : Nat) : Nat :=
  Bytes.littleEndian (fun index => arena.byte (offset + index)) 8

theorem readWord?_of_le (arena : Arena) (offset : Nat) (inside : offset + 8 ≤ arena.hi) :
    arena.readWord? offset = some (arena.word offset) := by
  unfold word
  simp only [readWord?_eq, wordSize_eq, inside, if_true]

theorem readWord_of_le (arena : Arena) (offset : Nat) (inside : offset + 8 ≤ arena.hi) :
    arena.readWord offset = .ok (arena.word offset) := by
  rw [readWord, readWord?_of_le arena offset inside]

theorem readBytes_of_le (arena : Arena) (offset length : Nat)
    (inside : offset + length ≤ arena.hi) :
    arena.readBytes offset length =
      .ok ((List.range length).map fun index => arena.byte (offset + index)) :=
  if_pos inside

theorem hi_lt (arena : Arena) : arena.hi < wordLimit :=
  Nat.lt_of_le_of_lt arena.hi_le_capacity arena.capacity_lt

/-- Only bytes at touched positions change, and the break stays where it is. -/
structure Confined (touched : Nat → Prop) (before after : Arena) : Prop where
  hi : after.hi = before.hi
  capacity : after.capacity = before.capacity
  backing : after.backing = before.backing
  byte : ∀ position, ¬touched position → after.byte position = before.byte position

namespace Confined

variable {touched other : Nat → Prop} {first second third : Arena}

theorem refl (touched : Nat → Prop) (arena : Arena) : Confined touched arena arena :=
  ⟨rfl, rfl, rfl, fun _ _ => rfl⟩

theorem mono (confined : Confined touched first second)
    (wider : ∀ position, touched position → other position) : Confined other first second :=
  ⟨confined.hi, confined.capacity, confined.backing,
    fun position outside => confined.byte position fun inside => outside (wider position inside)⟩

theorem trans (left : Confined touched first second) (right : Confined touched second third) :
    Confined touched first third where
  hi := right.hi.trans left.hi
  capacity := right.capacity.trans left.capacity
  backing := right.backing.trans left.backing
  byte position outside := (right.byte position outside).trans (left.byte position outside)

/-- A word away from all touched positions stays. -/
theorem word (confined : Confined touched first second) (offset : Nat)
    (away : ∀ position, Span offset (offset + 8) position → ¬touched position) :
    second.word offset = first.word offset := by
  unfold Arena.word
  apply Bytes.littleEndian_congr
  intro index below
  apply confined.byte
  apply away
  constructor <;> omega

end Confined

/-- The word at an offset, read as a header, is not that of an allocated block. -/
def Idle (arena : Arena) (offset : Nat) : Prop :=
  (Header.ofWord (arena.word offset)).allocated = false

/-- Where a header can stand, no word that was idle turns into the header of an allocated block. -/
def StaysIdle (before after : Arena) : Prop :=
  ∀ offset, offset % 16 = 8 → before.Idle offset → after.Idle offset

theorem StaysIdle.refl (arena : Arena) : arena.StaysIdle arena :=
  fun _ _ idle => idle

theorem StaysIdle.trans {first second third : Arena} (left : first.StaysIdle second)
    (right : second.StaysIdle third) : first.StaysIdle third :=
  fun offset place idle => right offset place (left offset place idle)

/-- A word away from all touched positions stays idle. -/
theorem Idle.confined {touched : Nat → Prop} {before after : Arena} {offset : Nat}
    (idle : before.Idle offset) (confined : Confined touched before after)
    (away : ∀ position, Span offset (offset + 8) position → ¬touched position) :
    after.Idle offset := by
  rw [Idle, confined.word offset away]
  exact idle

/-- The word written can be read again. -/
theorem writeWord_returns (arena : Arena) (offset word : Nat) (inside : offset + 8 ≤ arena.hi)
    (fits : word < wordLimit) :
    Returns (writeWord offset word) arena fun _ after =>
      Confined (Span offset (offset + 8)) arena after ∧ after.word offset = word := by
  refine ⟨_, _, dif_pos inside, ⟨rfl, rfl, rfl, ?_⟩, ?_⟩
  · intro position outside
    exact (Store.get_overwrite _ _ _ _ _).trans (if_neg outside)
  · -- Each byte is read from where it was written, and eight bytes make up the word again.
    have stored : ∀ index, index < 8 →
        (arena.store.overwrite offset 8 (Bytes.byteOf word)).get (offset + index)
          = Bytes.byteOf word index := by
      intro index below
      rw [Store.get_overwrite, if_pos (by omega), Nat.add_sub_cancel_left]
    unfold Arena.word
    calc
      _ = Bytes.littleEndian (Bytes.byteOf word) 8 := Bytes.littleEndian_congr _ _ 8 stored
      _ = word % (1 <<< 64) := Bytes.littleEndian_byteOf word 8
      _ = word := Nat.mod_eq_of_lt fits

theorem writeBytes_returns (arena : Arena) (offset length : Nat) (source : Nat → UInt8)
    (inside : offset + length ≤ arena.hi) :
    Returns (writeBytes offset length source) arena fun _ after =>
      Confined (Span offset (offset + length)) arena after ∧
        ∀ index, index < length → after.byte (offset + index) = source index := by
  refine ⟨_, _, dif_pos inside, ⟨rfl, rfl, rfl, ?_⟩, ?_⟩
  · intro position outside
    exact (Store.get_overwrite _ _ _ _ _).trans (if_neg outside)
  · intro index below
    refine (Store.get_overwrite _ _ _ _ _).trans ?_
    rw [if_pos (by omega), Nat.add_sub_cancel_left]

theorem fillBytes_returns (arena : Arena) (offset length : Nat) (byte : UInt8)
    (inside : offset + length ≤ arena.hi) :
    Returns (fillBytes offset length byte) arena fun _ after =>
      Confined (Span offset (offset + length)) arena after ∧
        ∀ index, index < length → after.byte (offset + index) = byte := by
  refine ⟨_, _, dif_pos inside, ⟨rfl, rfl, rfl, ?_⟩, ?_⟩
  · intro position outside
    exact (Store.get_fill _ _ _ _ _).trans (if_neg outside)
  · intro index below
    exact (Store.get_fill _ _ _ _ _).trans (if_pos (by omega))

theorem copyBytes_returns (arena : Arena) (source target length : Nat)
    (readable : source + length ≤ arena.hi) (writable : target + length ≤ arena.hi) :
    Returns (copyBytes source target length) arena fun _ after =>
      Confined (Span target (target + length)) arena after ∧
        ∀ index, index < length → after.byte (target + index) = arena.byte (source + index) := by
  refine ⟨_, _, dif_pos ⟨readable, writable⟩, ⟨rfl, rfl, rfl, ?_⟩, ?_⟩
  · intro position outside
    exact (Store.get_copy _ _ _ _ _).trans (if_neg outside)
  · intro index below
    refine (Store.get_copy _ _ _ _ _).trans ?_
    rw [if_pos (by omega), Nat.add_sub_cancel_left]
    rfl

end Arena

end BoundaryTag
