import BoundaryTag.Store
import BoundaryTag.Word

/-!
# Arenas

An arena is a run of bytes that grows at its high end:

```text
  0                                        hi                capacity
  ┌────────────────────────────────────────┬───────────────────┐
  │            grown (in use)              │     reserved      │
  └────────────────────────────────────────┴───────────────────┘
```

The break `hi` moves up by `grow` and back to zero by `reset`. Every access stays below the break or
faults. A buffer forgets its bytes at a reset, so it grows by zeros; a mapping keeps them.
-/
namespace BoundaryTag

/-- Where the bytes of an arena come from. -/
inductive Backing where
  /-- A buffer that holds the grown bytes only. -/
  | buffer
  /-- A mapping that holds the whole capacity from the start. -/
  | mapping
deriving DecidableEq, Repr

/-- Why an arena cannot be made or grown. -/
inductive ArenaError where
  /-- Growing would pass the capacity. -/
  | exhausted (requested available : Nat)
  /-- The system has made no mapping. -/
  | unmappable (reason : String)
deriving DecidableEq, Repr

def ArenaError.message : ArenaError → String
  | .exhausted requested available =>
    s!"arena exhausted: requested {requested} bytes, {available} available"
  | .unmappable reason => s!"failed to map arena backing memory: {reason}"

/-- How the system answers when it is asked for a mapping. -/
inductive Mapped where
  /-- There is none, for a reason in the words of the system. -/
  | failed (reason : String)
  /-- There is one. It begins at an address of the machine and holds some bytes. -/
  | made (base : Nat) (bytes : Store)

/-- What the system answers for each length of a mapping. -/
abbrev Mapper := Nat → Mapped

namespace Mapper

/-- New mappings hold zeros. -/
def Zeroed (map : Mapper) : Prop :=
  ∀ length base bytes, map length = .made base bytes → ∀ offset, bytes.get offset = 0

/-- A system with room for mappings below some length, all of which begin at one address. -/
def below (limit base : Nat) (reason : String) : Mapper := fun length =>
  if length < limit then .made base .empty else .failed reason

theorem zeroed_below (limit base : Nat) (reason : String) : (below limit base reason).Zeroed := by
  intro length start bytes answers offset
  unfold below at answers
  split at answers
  · cases answers
    exact Store.get_empty offset
  · cases answers

end Mapper

/-- A growable run of bytes. -/
structure Arena where
  backing : Backing
  /-- The highest place the break may have. -/
  capacity : Nat
  /-- The break: one past the last byte in use. -/
  hi : Nat
  store : Store
  hi_le_capacity : hi ≤ capacity
  capacity_lt : capacity < wordLimit
  /-- A buffer holds nothing at or above the break. -/
  zero_above_hi : backing = .buffer → ∀ offset, hi ≤ offset → store.get offset = 0

abbrev ArenaM := EStateM Fault Arena

namespace Arena

/-- The capacity that an arena has unless another is asked for: 20 MiB. -/
def defaultCapacity : Nat := 20971520

/-- The largest size of a buffer, the largest signed word. -/
def bufferLimit : Nat := 0x7FFFFFFFFFFFFFFF

/-- Mappings are whole pages. -/
def pageSize : Nat := 4096

/-- An empty buffer; a capacity beyond the machine word is cut to the largest word. -/
def buffer (capacity : Nat) : Arena where
  backing := .buffer
  capacity := min capacity (wordLimit - 1)
  hi := 0
  store := .empty
  hi_le_capacity := Nat.zero_le _
  capacity_lt := Nat.lt_of_le_of_lt (Nat.min_le_right _ _) (by decide)
  zero_above_hi := fun _ offset _ => Store.get_empty offset

/-- An arena in a mapping, if the system has made one. A mapping at address zero is of no use. -/
def ofMapped (answer : Mapped) (capacity : Nat) (fits : capacity < wordLimit) :
    Except ArenaError Arena :=
  match answer with
  | .failed reason => .error (.unmappable reason)
  | .made base bytes =>
    if base = 0 then .error (.unmappable "mmap returned a null mapping")
    else .ok {
      backing := .mapping
      capacity
      hi := 0
      store := bytes
      hi_le_capacity := Nat.zero_le _
      capacity_lt := fits
      zero_above_hi := nofun }

/-- An arena in a mapping of at least one page, with the capacity rounded up to whole pages. -/
def mapping (map : Mapper) (capacity : Nat) : Except Fault (Except ArenaError Arena) :=
  match rounds : alignTo (max capacity 1) pageSize with
  | .error fault => .error fault
  | .ok rounded => .ok (ofMapped (map rounded) rounded (lt_of_alignTo rounds))

section Mapping

variable {map : Mapper} {capacity rounded : Nat} {arena : Arena}

theorem ofMapped_spec {answer : Mapped} {fits : capacity < wordLimit}
    (made : ofMapped answer capacity fits = .ok arena) :
    arena.backing = .mapping ∧ arena.capacity = capacity
      ∧ ∃ base, answer = .made base arena.store := by
  cases answer with
  | failed reason => cases made
  | made base bytes =>
    unfold ofMapped at made
    simp only at made
    split at made
    · cases made
    · cases made
      exact ⟨rfl, rfl, base, rfl⟩

theorem mapping_of_fault {fault : Fault}
    (faults : alignTo (max capacity 1) pageSize = .error fault) :
    mapping map capacity = .error fault := by
  unfold mapping
  split
  next also => cases faults.symm.trans also; rfl
  next also => cases faults.symm.trans also

theorem mapping_of_rounded (rounds : alignTo (max capacity 1) pageSize = .ok rounded) :
    mapping map capacity = .ok (ofMapped (map rounded) rounded (lt_of_alignTo rounds)) := by
  unfold mapping
  split
  next also => cases rounds.symm.trans also
  next also => cases rounds.symm.trans also; rfl

/-- An arena in a mapping has the rounded capacity, and the bytes that the system put there. -/
theorem mapping_spec (maps : mapping map capacity = .ok (.ok arena)) :
    arena.backing = .mapping ∧ alignTo (max capacity 1) pageSize = .ok arena.capacity
      ∧ ∃ base, map arena.capacity = .made base arena.store := by
  cases rounds : alignTo (max capacity 1) pageSize with
  | error fault => cases (mapping_of_fault rounds).symm.trans maps
  | ok rounded =>
    obtain ⟨kind, rfl, made⟩ :=
      ofMapped_spec (Except.ok.inj ((mapping_of_rounded rounds).symm.trans maps))
    exact ⟨kind, rfl, made⟩

end Mapping

/-- The byte at an offset, which may lie above the break. -/
def byte (arena : Arena) (offset : Nat) : UInt8 :=
  arena.store.get offset

/-- The bytes from an offset on, all of which must lie below the break. -/
def readBytes (arena : Arena) (offset length : Nat) : Except Fault (List UInt8) :=
  if offset + length ≤ arena.hi then
    .ok ((List.range length).map fun index => arena.byte (offset + index))
  else .error .outOfBounds

/-- The word at an offset, or nothing when it is not all below the break. -/
def readWord? (arena : Arena) (offset : Nat) : Option Nat :=
  if offset + wordSize ≤ arena.hi then
    some (arena.store.number offset wordSize)
  else none

/-- A word is made up of its bytes. -/
theorem readWord?_eq (arena : Arena) (offset : Nat) :
    arena.readWord? offset =
      if offset + wordSize ≤ arena.hi then
        some (Bytes.littleEndian (fun index => arena.byte (offset + index)) wordSize)
      else none := by
  unfold readWord?
  rw [Store.number_eq]
  rfl

/-- The word at an offset, all of which must lie below the break. -/
def readWord (arena : Arena) (offset : Nat) : Except Fault Nat :=
  match arena.readWord? offset with
  | some word => .ok word
  | none => .error .outOfBounds

/-- Moves the break up, if the capacity allows it, and answers where it was. -/
def grow (amount : Nat) : ArenaM (Except ArenaError Nat) := fun arena =>
  if fits : arena.hi + amount ≤ arena.capacity then
    if arena.backing = .buffer ∧ bufferLimit < arena.hi + amount then
      .error .oversizedBuffer arena
    else
      -- Nothing is written: what is above the break becomes part of the arena as it is.
      .ok (.ok arena.hi) { arena with
        hi := arena.hi + amount
        hi_le_capacity := fits
        zero_above_hi := fun kind offset above =>
          arena.zero_above_hi kind offset (Nat.le_trans (Nat.le_add_right _ _) above) }
  else .ok (.error (.exhausted amount (arena.capacity - arena.hi))) arena

/-- Moves the break back to zero. -/
def reset : ArenaM Unit := fun arena =>
  match arena with
  | { backing := .buffer, capacity, capacity_lt, .. } =>
    .ok () {
      backing := .buffer, capacity, hi := 0, store := .empty
      hi_le_capacity := Nat.zero_le _, capacity_lt
      zero_above_hi := fun _ offset _ => Store.get_empty offset }
  | { backing := .mapping, capacity, store, capacity_lt, .. } =>
    -- The bytes are found again when the break moves up.
    .ok () {
      backing := .mapping, capacity, hi := 0, store
      hi_le_capacity := Nat.zero_le _, capacity_lt
      zero_above_hi := nofun }

/-- Replaces `length` bytes from an offset on by `source 0`, `source 1`, …. All of them must lie
below the break. -/
def writeBytes (offset length : Nat) (source : Nat → UInt8) : ArenaM Unit := fun arena =>
  if inside : offset + length ≤ arena.hi then
    .ok () { arena with
      store := arena.store.overwrite offset length source
      zero_above_hi := fun kind position above => by
        rw [Store.get_overwrite, if_neg (by omega)]
        exact arena.zero_above_hi kind position above }
  else .error .outOfBounds arena

/-- Replaces `length` bytes from an offset on by one byte. All of them must lie below the break. -/
def fillBytes (offset length : Nat) (byte : UInt8) : ArenaM Unit := fun arena =>
  if inside : offset + length ≤ arena.hi then
    .ok () { arena with
      store := arena.store.fill offset length byte
      zero_above_hi := fun kind position above => by
        rw [Store.get_fill, if_neg (by omega)]
        exact arena.zero_above_hi kind position above }
  else .error .outOfBounds arena

def writeWord (offset word : Nat) : ArenaM Unit :=
  writeBytes offset wordSize (Bytes.byteOf word)

/-- Copies `length` bytes; the two ranges, which may overlap, must lie below the break. -/
def copyBytes (source target length : Nat) : ArenaM Unit := fun arena =>
  if inside : source + length ≤ arena.hi ∧ target + length ≤ arena.hi then
    .ok () { arena with
      store := arena.store.copy source target length
      zero_above_hi := fun kind position above => by
        rw [Store.get_copy, if_neg (by omega)]
        exact arena.zero_above_hi kind position above }
  else .error .outOfBounds arena

end Arena

end BoundaryTag
