import BoundaryTag.Bytes

/-!
# Sparse byte stores

A store has a byte at every position. A store without writes is zero everywhere, and a write takes
room near the positions written to only, so a store of many gigabytes that holds little is small.

The positions are cut into leaves of equal length, and the leaves into branches:

```text
  position = (branch * fanout + place of the leaf in its branch) * leafSize + place in the leaf
```

Leaves and branches and the store itself are arrays read as unbounded ones. What writes do to the
bytes is said by `get_overwrite`, `get_fill` and `get_copy`; leaves and branches do not show in it.
-/
namespace BoundaryTag

/-- Bytes at all positions, held in leaves. -/
structure Store where
  /-- The branches in order, each with its leaves in order. -/
  branches : Array (Array ByteArray)

namespace Store

def leafSize : Nat := 4096

def fanout : Nat := 65536

/-- The entry at an index of an array; a blank past its end. -/
def entry {Entry : Type} (blank : Entry) (entries : Array Entry) (index : Nat) : Entry :=
  entries[index]?.getD blank

/-- The array with blanks behind it, so that it has an entry at an index. -/
def reach {Entry : Type} (blank : Entry) (entries : Array Entry) (index : Nat) : Array Entry :=
  entries ++ Array.replicate (index + 1 - entries.size) blank

def amend {Entry : Type} (blank : Entry) (entries : Array Entry) (index : Nat)
    (change : Entry → Entry) : Array Entry :=
  (reach blank entries index).modify index change

def empty : Store := ⟨#[]⟩

def leaf (store : Store) (number : Nat) : ByteArray :=
  entry .empty (entry #[] store.branches (number / fanout)) (number % fanout)

def amendLeaf (store : Store) (number : Nat) (change : ByteArray → ByteArray) : Store :=
  ⟨amend #[] store.branches (number / fanout) fun leaves =>
    amend .empty leaves (number % fanout) change⟩

def get (store : Store) (position : Nat) : UInt8 :=
  Bytes.get (store.leaf (position / leafSize)) (position % leafSize)

/-- The number whose lowest byte stands at a position, of `count` bytes in all. When they stand in
one leaf, the leaf is looked up once. -/
def number (store : Store) (position count : Nat) : Nat :=
  let place := position % leafSize
  if place + count ≤ leafSize then
    Bytes.numberFrom (store.leaf (position / leafSize)) place count 0
  else Bytes.littleEndian (fun index => store.get (position + index)) count

/-- Changes `count` leaves from the leaf with number `first` on, each by its number. -/
def amendLeaves (store : Store) (first count : Nat) (change : Nat → ByteArray → ByteArray) :
    Store :=
  count.fold (fun index _ store => store.amendLeaf (first + index) (change (first + index))) store

/-- Replaces those bytes of a leaf that stand at positions from `start` up to `stop`. The byte at
each position comes from `source`. -/
def overwriteLeaf (start stop : Nat) (source : Nat → UInt8) (number : Nat) (bytes : ByteArray) :
    ByteArray :=
  let base := number * leafSize
  let low := max start base
  let high := min stop (base + leafSize)
  Bytes.overwrite bytes (low - base) (high - low) fun index => source (low + index)

/-- How many leaves the positions from `start` up to `stop` reach into. -/
def leafCount (start stop : Nat) : Nat :=
  stop / leafSize + 1 - start / leafSize

/-- Replaces `length` bytes from `position` on by `source 0`, `source 1`, …. -/
def overwrite (store : Store) (position length : Nat) (source : Nat → UInt8) : Store :=
  let stop := position + length
  store.amendLeaves (position / leafSize) (leafCount position stop)
    (overwriteLeaf position stop fun place => source (place - position))

/-- Replaces `length` bytes from `position` on by one byte. Leaves that are replaced as a whole are
all the same, so they share their room. -/
def fill (store : Store) (position length : Nat) (byte : UInt8) : Store :=
  let stop := position + length
  let whole := Bytes.overwrite .empty 0 leafSize fun _ => byte
  store.amendLeaves (position / leafSize) (leafCount position stop) fun number bytes =>
    if position ≤ number * leafSize ∧ number * leafSize + leafSize ≤ stop then whole
    else overwriteLeaf position stop (fun _ => byte) number bytes

/-- Replaces those bytes of a leaf that stand at positions from `target` on by the bytes of a store
from `source` on, `length` in all. They come from two neighbouring leaves of the store. -/
def copyLeaf (store : Store) (source target length number : Nat) (bytes : ByteArray) :
    ByteArray :=
  let base := number * leafSize
  let low := max target base
  let high := min (target + length) (base + leafSize)
  let start := source + (low - target)
  let head := min (high - low) (leafSize - start % leafSize)
  Bytes.splice
    (Bytes.splice bytes (low - base) (store.leaf (start / leafSize)) (start % leafSize) head)
    (low - base + head) (store.leaf (start / leafSize + 1)) 0 (high - low - head)

/-- Copies `length` bytes from `source` to `target`; the two ranges may overlap. -/
def copy (store : Store) (source target length : Nat) : Store :=
  store.amendLeaves (target / leafSize) (leafCount target (target + length))
    (store.copyLeaf source target length)

theorem entry_reach {Entry : Type} (blank : Entry) (entries : Array Entry) (index other : Nat) :
    entry blank (reach blank entries index) other = entry blank entries other := by
  unfold entry reach
  rw [Array.getElem?_append, Array.getElem?_replicate]
  split
  next => rfl
  next outside =>
    rw [Array.getElem?_eq_none (Nat.le_of_not_lt outside)]
    split <;> rfl

theorem lt_size_reach {Entry : Type} (blank : Entry) (entries : Array Entry) (index : Nat) :
    index < (reach blank entries index).size := by
  unfold reach
  rw [Array.size_append, Array.size_replicate]
  omega

theorem entry_amend {Entry : Type} (blank : Entry) (entries : Array Entry) (index : Nat)
    (change : Entry → Entry) (other : Nat) :
    entry blank (amend blank entries index change) other =
      if other = index then change (entry blank entries index) else entry blank entries other := by
  rw [← entry_reach blank entries index index, ← entry_reach blank entries index other]
  unfold amend entry
  rw [Array.getElem?_modify]
  by_cases same : other = index
  · subst same
    rw [if_pos rfl, if_pos rfl, Array.getElem?_eq_getElem (lt_size_reach blank entries other)]
    rfl
  · rw [if_neg (Ne.symm same), if_neg same]

/-- Changing a leaf changes no other leaf. -/
theorem leaf_amendLeaf (store : Store) (number : Nat) (change : ByteArray → ByteArray)
    (other : Nat) :
    (store.amendLeaf number change).leaf other =
      if other = number then change (store.leaf number) else store.leaf other := by
  unfold leaf amendLeaf
  rw [entry_amend]
  -- A leaf is told by its branch and its place there together.
  by_cases branch : other / fanout = number / fanout
  · rw [if_pos branch, entry_amend]
    by_cases place : other % fanout = number % fanout
    · have same : other = number := by
        rw [← Nat.div_add_mod other fanout, ← Nat.div_add_mod number fanout, branch, place]
      rw [if_pos place, if_pos same]
    · have different : other ≠ number := fun same => place (by rw [same])
      rw [if_neg place, if_neg different, branch]
  · have different : other ≠ number := fun same => branch (by rw [same])
    rw [if_neg branch, if_neg different]

/-- The store without writes is zero everywhere. -/
theorem get_empty (position : Nat) : empty.get position = 0 := rfl

/-- Changing leaves changes those and no others. -/
theorem leaf_amendLeaves (store : Store) (first count : Nat)
    (change : Nat → ByteArray → ByteArray) (number : Nat) :
    (store.amendLeaves first count change).leaf number =
      if first ≤ number ∧ number < first + count then change number (store.leaf number)
      else store.leaf number := by
  unfold amendLeaves
  induction count with
  | zero => rw [Nat.fold_zero, if_neg (by omega)]
  | succ count ih =>
    rw [Nat.fold_succ, leaf_amendLeaf]
    by_cases last : number = first + count
    · subst last
      rw [if_pos rfl, if_pos (by omega), ih, if_neg (by omega)]
    · have bounds : (first ≤ number ∧ number < first + count)
          ↔ (first ≤ number ∧ number < first + (count + 1)) := by omega
      rw [if_neg last, ih]
      simp only [bounds]

/-- The positions of a range lie in the leaves it reaches into. -/
theorem div_lt_leafCount (start stop position : Nat) (low : start ≤ position)
    (high : position < stop) :
    start / leafSize ≤ position / leafSize
      ∧ position / leafSize < start / leafSize + leafCount start stop := by
  have lower := Nat.div_le_div_right (c := leafSize) low
  have upper := Nat.div_le_div_right (c := leafSize) (Nat.le_of_lt high)
  unfold leafCount
  omega

/-- Overwriting in a leaf changes the bytes of the range and no others. -/
theorem get_overwriteLeaf (start stop : Nat) (source : Nat → UInt8) (number : Nat)
    (bytes : ByteArray) (place : Nat) (inside : place < leafSize) :
    Bytes.get (overwriteLeaf start stop source number bytes) place =
      if start ≤ number * leafSize + place ∧ number * leafSize + place < stop then
        source (number * leafSize + place)
      else Bytes.get bytes place := by
  unfold overwriteLeaf
  rw [Bytes.get_overwrite]
  generalize number * leafSize = base
  by_cases range : start ≤ base + place ∧ base + place < stop
  · rw [if_pos (by omega), if_pos range]
    congr 1
    omega
  · rw [if_neg (by omega), if_neg range]

/-- Overwriting a range changes the bytes of that range and no others. -/
theorem get_overwrite (store : Store) (position length : Nat) (source : Nat → UInt8)
    (other : Nat) :
    (store.overwrite position length source).get other =
      if position ≤ other ∧ other < position + length then source (other - position)
      else store.get other := by
  unfold overwrite get
  rw [leaf_amendLeaves]
  split
  next =>
    rw [get_overwriteLeaf _ _ _ _ _ _ (Nat.mod_lt other (by decide)), Nat.div_add_mod']
  next outside =>
    rw [if_neg fun range => outside (div_lt_leafCount _ _ _ range.1 range.2)]

/-- Filling a range changes the bytes of that range and no others. -/
theorem get_fill (store : Store) (position length : Nat) (byte : UInt8) (other : Nat) :
    (store.fill position length byte).get other =
      if position ≤ other ∧ other < position + length then byte else store.get other := by
  have place := Nat.mod_lt other (show 0 < leafSize by decide)
  have sum := Nat.div_add_mod' other leafSize
  unfold fill get
  rw [leaf_amendLeaves]
  split
  next =>
    split
    next whole => rw [Bytes.get_overwrite, if_pos (by omega), if_pos (by omega)]
    next => rw [get_overwriteLeaf _ _ _ _ _ _ place, sum]
  next outside =>
    rw [if_neg fun range => outside (div_lt_leafCount _ _ _ range.1 range.2)]

/-- Going on within a leaf. -/
theorem div_mod_add_of_lt (start step : Nat) (within : step < leafSize - start % leafSize) :
    (start + step) / leafSize = start / leafSize
      ∧ (start + step) % leafSize = start % leafSize + step := by
  unfold leafSize at *
  omega

/-- Going on into the next leaf. -/
theorem div_mod_add_of_le (start step : Nat) (beyond : leafSize - start % leafSize ≤ step)
    (near : step < leafSize) :
    (start + step) / leafSize = start / leafSize + 1
      ∧ (start + step) % leafSize = step - (leafSize - start % leafSize) := by
  unfold leafSize at *
  omega

/-- A number is made up of the bytes of the store, wherever the leaves end. -/
theorem number_eq (store : Store) (position count : Nat) :
    store.number position count =
      Bytes.littleEndian (fun index => store.get (position + index)) count := by
  unfold number
  simp only []
  split
  next inside =>
    rw [Bytes.numberFrom_eq, Nat.zero_shiftLeft, Nat.add_zero]
    apply Bytes.littleEndian_congr
    intro index below
    obtain ⟨same, place⟩ := div_mod_add_of_lt position index (by omega)
    rw [get, same, place]
  next => rfl

/-- Copying into a leaf changes the bytes of the range and no others. -/
theorem get_copyLeaf (store : Store) (source target length number : Nat) (bytes : ByteArray)
    (place : Nat) (inside : place < leafSize) :
    Bytes.get (store.copyLeaf source target length number bytes) place =
      if target ≤ number * leafSize + place ∧ number * leafSize + place < target + length then
        store.get (source + (number * leafSize + place - target))
      else Bytes.get bytes place := by
  unfold copyLeaf get
  simp only []
  rw [Bytes.get_splice, Bytes.get_splice]
  generalize number * leafSize = base
  by_cases range : target ≤ base + place ∧ base + place < target + length
  · rw [if_pos range]
    -- Steps are counted from the first byte that is copied into this leaf.
    have sum : source + (max target base - target) + (place - (max target base - base))
        = source + (base + place - target) := by omega
    generalize source + (max target base - target) = start at *
    rw [← sum]
    generalize steps : place - (max target base - base) = step
    -- The byte comes from the first of two neighbouring leaves, or from the second one.
    by_cases within : step < leafSize - start % leafSize
    · obtain ⟨same, rest⟩ := div_mod_add_of_lt start step within
      rw [if_neg (by omega), if_pos (by omega), same, rest]
    · obtain ⟨next, rest⟩ := div_mod_add_of_le start step (by omega) (by omega)
      rw [if_pos (by omega), next, rest]
      congr 1
      omega
  · rw [if_neg (by omega), if_neg (by omega), if_neg range]

/-- Copying changes the bytes of the target and no others. -/
theorem get_copy (store : Store) (source target length other : Nat) :
    (store.copy source target length).get other =
      if target ≤ other ∧ other < target + length then store.get (source + (other - target))
      else store.get other := by
  unfold copy
  rw [get, leaf_amendLeaves]
  split
  next =>
    rw [get_copyLeaf _ _ _ _ _ _ _ (Nat.mod_lt other (by decide)), Nat.div_add_mod']
    rfl
  next outside =>
    rw [if_neg fun range => outside (div_lt_leafCount _ _ _ range.1 range.2)]
    rfl

end Store

end BoundaryTag
