import BoundaryTag.Proofs.Reset

/-!
# Arenas in use

An arena is made once, in a buffer or in a mapping of zeros, and from then on it is grown, reset and
written to in any order, within its bounds or beyond them. Next to it goes a record of what it has
shown: for each position the byte that stood there when the position was last below the break. A
buffer grows by zeros whatever is on record. A mapping has nothing but what is on record, above the
break too, so it grows by that.
-/
namespace BoundaryTag

/-- The number that some bytes make up takes no more digits to the base 256 than there are bytes. -/
theorem Bytes.littleEndian_lt (source : Nat → UInt8) (count : Nat) :
    littleEndian source count < 2 ^ (8 * count) := by
  induction count with
  | zero => simp [littleEndian]
  | succ count ih =>
    -- The last byte is the leading digit.
    have byte : (source count).toNat ≤ 255 := Nat.le_of_lt_succ (source count).toNat_lt
    have high := Nat.mul_le_mul_right (2 ^ (8 * count)) byte
    have longer : 2 ^ (8 * (count + 1)) = 256 * 2 ^ (8 * count) := by
      rw [Nat.mul_succ, Nat.pow_add, Nat.mul_comm]
    rw [littleEndian, Nat.shiftLeft_eq, longer]
    omega

/-- The state that an action leaves, whether it ends or faults. -/
def final {State Result : Type} (action : EStateM Fault State Result) (state : State) : State :=
  match action state with
  | .ok _ after => after
  | .error _ after => after

section Final

variable {State Result : Type} {action : EStateM Fault State Result} {state after : State}

theorem final_of_ok {result : Result} (run : action state = .ok result after) :
    final action state = after := by
  simp only [final, run]

theorem final_of_error {fault : Fault} (run : action state = .error fault after) :
    final action state = after := by
  simp only [final, run]

end Final

namespace Arena

/-! ## Use -/

/-- What an arena can be told to do to itself. -/
inductive Change where
  | grow (amount : Nat)
  | reset
  | writeWord (offset word : Nat)

/-- The arena after a change, which it may have refused or which may have faulted. -/
def change (arena : Arena) : Change → Arena
  | .grow amount => final (grow amount) arena
  | .reset => final reset arena
  | .writeWord offset word => final (writeWord offset word) arena

/-- The record of what an arena has shown, brought up to date by the bytes below the break. -/
def record (arena : Arena) (shown : Nat → UInt8) (position : Nat) : UInt8 :=
  if position < arena.hi then arena.byte position else shown position

/-- An arena that was made and then changed any number of times, with the record of what it has
shown. A position that was never below the break is on record as zero. -/
inductive Used : Arena → (Nat → UInt8) → Prop
  | buffer (capacity : Nat) : Used (.buffer capacity) fun _ => 0
  | mapping {map : Mapper} {capacity : Nat} {arena : Arena} (zeroed : map.Zeroed)
      (maps : Arena.mapping map capacity = .ok (.ok arena)) : Used arena fun _ => 0
  | changed {arena : Arena} {shown : Nat → UInt8} (used : Used arena shown) (change : Change) :
    Used (arena.change change) ((arena.change change).record shown)

variable {arena : Arena} {shown : Nat → UInt8}

/-- A change leaves the size and the kind of an arena alone, and the bytes of a mapping as far as
they are not below the break. -/
structure Keeps (before after : Arena) : Prop where
  capacity : after.capacity = before.capacity
  backing : after.backing = before.backing
  byte : before.backing = .mapping →
    ∀ position, after.hi ≤ position → after.byte position = before.byte position

theorem Keeps.refl (arena : Arena) : Keeps arena arena :=
  ⟨rfl, rfl, fun _ _ _ => rfl⟩

theorem keeps_grow (arena : Arena) (amount : Nat) : Keeps arena (final (grow amount) arena) := by
  by_cases fits : arena.hi + amount ≤ arena.capacity
  · by_cases large : arena.backing = .buffer ∧ bufferLimit < arena.hi + amount
    · rw [final_of_error (grow_of_oversized fits large)]
      exact .refl arena
    · obtain ⟨_, after, run, -, -, capacity, backing, same⟩ := grow_returns fits large
      rw [final_of_ok run]
      exact ⟨capacity, backing, fun _ position _ => same position⟩
  · rw [final_of_ok (grow_of_exhausted fits)]
    exact .refl arena

theorem keeps_reset (arena : Arena) : Keeps arena (final reset arena) := by
  obtain ⟨_, after, run, -, capacity, backing, same⟩ := reset_returns arena
  rw [final_of_ok run]
  exact ⟨capacity, backing, fun kind position _ => same kind position⟩

theorem writeWord_of_outside {offset : Nat} (outside : ¬offset + 8 ≤ arena.hi) (word : Nat) :
    writeWord offset word arena = .error .outOfBounds arena :=
  dif_neg outside

theorem keeps_writeWord (arena : Arena) (offset word : Nat) :
    Keeps arena (final (writeWord offset word) arena) := by
  by_cases inside : offset + 8 ≤ arena.hi
  · obtain ⟨_, after, run, confined, -⟩ :=
      writeBytes_returns arena offset 8 (Bytes.byteOf word) inside
    rw [writeWord, wordSize_eq, final_of_ok run]
    refine ⟨confined.capacity, confined.backing, fun _ position above => ?_⟩
    -- What is written is below the break, which a write does not move.
    apply confined.byte
    rw [confined.hi] at above
    exact fun touched => absurd touched.2 (by omega)
  · rw [final_of_error (writeWord_of_outside inside word)]
    exact .refl arena

theorem keeps_change (arena : Arena) (change : Change) : Keeps arena (arena.change change) := by
  cases change with
  | grow amount => exact keeps_grow arena amount
  | reset => exact keeps_reset arena
  | writeWord offset word => exact keeps_writeWord arena offset word

/-- All bytes of a mapping are on record, wherever the break stands. -/
theorem Used.byte_eq (used : Used arena shown) (kind : arena.backing = .mapping) (position : Nat) :
    arena.byte position = shown position := by
  -- A change puts on record what is below the break, and leaves a mapping as it is above.
  induction used with
  | buffer capacity => cases kind
  | mapping zeroed maps =>
    obtain ⟨-, -, base, made⟩ := mapping_spec maps
    exact zeroed _ _ _ made position
  | @changed before shown used change ih =>
    have keeps := keeps_change before change
    have mapped : before.backing = .mapping := keeps.backing.symm.trans kind
    rw [record]
    split
    next => rfl
    next above => rw [keeps.byte mapped position (Nat.le_of_not_lt above), ih mapped]

/-! ## Laws -/

/-- What stands at a position that an arena gains by growing. -/
def gained (arena : Arena) (shown : Nat → UInt8) (position : Nat) : UInt8 :=
  match arena.backing with
  | .buffer => 0
  | .mapping => shown position

theorem Used.gained_eq (used : Used arena shown) {position : Nat} (above : arena.hi ≤ position) :
    arena.byte position = arena.gained shown position := by
  cases kind : arena.backing with
  | buffer =>
    rw [gained, kind]
    exact arena.zero_above_hi kind position above
  | mapping =>
    rw [gained, kind]
    exact used.byte_eq kind position

/-- An arena grows if its capacity allows it, and then by what it has to gain. Otherwise it stays as
it is and answers with the room that is left. -/
structure GrowthLaw (arena : Arena) (shown : Nat → UInt8) (amount : Nat) : Prop where
  grows : arena.hi + amount ≤ arena.capacity → Returns (grow amount) arena fun answer after =>
    answer = .ok arena.hi ∧ after.hi = arena.hi + amount ∧ after.capacity = arena.capacity
      ∧ after.backing = arena.backing
      ∧ (∀ position, position < arena.hi → after.byte position = arena.byte position)
      ∧ ∀ position, arena.hi ≤ position → position < after.hi →
        after.byte position = arena.gained shown position
  refuses : arena.capacity < arena.hi + amount → ∃ available,
    grow amount arena = .ok (.error (.exhausted amount available)) arena
      ∧ arena.hi + available = arena.capacity

/-- The word at an offset can be read and replaced if all of it is below the break. Otherwise there
is none, and reading or writing it all the same faults and changes nothing. -/
structure WordLaw (arena : Arena) (offset : Nat) : Prop where
  reads : offset + 8 ≤ arena.hi → ∃ word, word < wordLimit
    ∧ word = Bytes.littleEndian (fun index => arena.byte (offset + index)) 8
    ∧ arena.readWord? offset = some word ∧ arena.readWord offset = .ok word
  writes : offset + 8 ≤ arena.hi → ∀ word, word < wordLimit →
    Returns (writeWord offset word) arena fun _ after =>
      after.readWord offset = .ok word ∧ Confined (Span offset (offset + 8)) arena after
  faults : arena.hi < offset + 8 →
    arena.readWord? offset = none ∧ arena.readWord offset = .error .outOfBounds
      ∧ ∀ word, writeWord offset word arena = .error .outOfBounds arena

theorem Used.growthLaw (used : Used arena shown)
    (growable : arena.backing = .buffer → arena.capacity ≤ bufferLimit) (amount : Nat) :
    GrowthLaw arena shown amount := by
  constructor
  · intro fits
    have small : ¬(arena.backing = .buffer ∧ bufferLimit < arena.hi + amount) := by
      rintro ⟨kind, large⟩
      have limit := growable kind
      omega
    refine (grow_returns fits small).mono ?_
    rintro _ after ⟨rfl, top, capacity, backing, same⟩
    refine ⟨rfl, top, capacity, backing, fun position _ => same position, ?_⟩
    -- Growing writes nothing, so what is gained stood above the break before.
    intro position above _
    rw [same, used.gained_eq above]
  · intro beyond
    have room := arena.hi_le_capacity
    exact ⟨arena.capacity - arena.hi, grow_of_exhausted (Nat.not_le_of_lt beyond), by omega⟩

theorem wordLaw (arena : Arena) (offset : Nat) : WordLaw arena offset := by
  constructor
  · intro inside
    have bytes : arena.word offset =
        Bytes.littleEndian (fun index => arena.byte (offset + index)) 8 := by
      unfold word
      rfl
    refine ⟨arena.word offset, ?_, bytes, readWord?_of_le arena offset inside,
      readWord_of_le arena offset inside⟩
    rw [bytes]
    exact Bytes.littleEndian_lt _ 8
  · intro inside word fits
    refine (writeWord_returns arena offset word inside fits).mono ?_
    rintro _ after ⟨confined, written⟩
    have within : offset + 8 ≤ after.hi := by
      rw [confined.hi]
      exact inside
    rw [readWord_of_le after offset within, written]
    exact ⟨rfl, confined⟩
  · intro beyond
    have outside : ¬offset + 8 ≤ arena.hi := Nat.not_le_of_lt beyond
    have nothing : arena.readWord? offset = none := by
      rw [readWord?, wordSize_eq, if_neg outside]
    refine ⟨nothing, ?_, writeWord_of_outside outside⟩
    rw [readWord, nothing]

/-- Whatever an arena was told to do since it was made, its break is within its capacity. It grows
exactly as far as the capacity allows, by zeros if it is a buffer, and if it is a mapping by the
bytes that it last showed there. Words can be read and written exactly below the break, and writing
one changes no other byte. It can be reset at any time. -/
theorem store_laws (used : Used arena shown)
    (growable : arena.backing = .buffer → arena.capacity ≤ bufferLimit) :
    arena.hi ≤ arena.capacity
      ∧ (∀ amount, GrowthLaw arena shown amount)
      ∧ (∀ offset, WordLaw arena offset)
      ∧ Returns reset arena fun _ after =>
        after.hi = 0 ∧ after.capacity = arena.capacity ∧ after.backing = arena.backing := by
  refine ⟨arena.hi_le_capacity, used.growthLaw growable, wordLaw arena, ?_⟩
  refine (reset_returns arena).mono ?_
  rintro _ after ⟨low, capacity, backing, -⟩
  exact ⟨low, capacity, backing⟩

/-- An arena that was grown, written to and reset. -/
def rewritten (made : Arena) : Arena :=
  ((made.change (.grow 64)).change (.writeWord 8 258)).change .reset

/-- After a reset a mapping grows by the word that was written to it, and a buffer by zeros. -/
theorem store_laws_of_regrown :
    (∃ made after, mapping (.below 65536 4096 "no room") 4096 = .ok (.ok made)
        ∧ grow 16 (rewritten made) = .ok (.ok 0) after ∧ after.byte 8 = 2 ∧ after.byte 9 = 1)
      ∧ ∃ after, grow 16 (rewritten (.buffer 4096)) = .ok (.ok 0) after
        ∧ after.byte 8 = 0 ∧ after.byte 9 = 0 := by
  constructor
  · have maps : mapping (.below 65536 4096 "no room") 4096 = .ok (.ok _) := rfl
    have new := Used.mapping (Mapper.zeroed_below _ _ _) maps
    have written := (new.changed (.grow 64)).changed (.writeWord 8 258)
    have used := written.changed .reset
    obtain ⟨-, growth, -, -⟩ := store_laws used nofun
    obtain ⟨_, after, run, rfl, top, -, -, -, gains⟩ := (growth 16).grows (by decide)
    have low := gains 8 (by decide) (by rw [top]; decide)
    have high := gains 9 (by decide) (by rw [top]; decide)
    -- The record has the bytes of the word from before the reset.
    exact ⟨_, after, maps, run, low.trans rfl, high.trans rfl⟩
  · have written := ((Used.buffer 4096).changed (.grow 64)).changed (.writeWord 8 258)
    have used := written.changed .reset
    obtain ⟨-, growth, -, -⟩ := store_laws used fun _ => by decide
    obtain ⟨_, after, run, rfl, top, -, -, -, gains⟩ := (growth 16).grows (by decide)
    have low := gains 8 (by decide) (by rw [top]; decide)
    have high := gains 9 (by decide) (by rw [top]; decide)
    exact ⟨after, run, low, high⟩

end Arena

end BoundaryTag
