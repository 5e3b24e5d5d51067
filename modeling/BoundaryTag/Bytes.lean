/-!
# Unbounded byte arrays

A byte array is read as an unbounded one: bytes past its end are zero. Writing past the end extends
the array, so it needs no more room than the highest byte written to it.

A word is stored with its lowest byte first.
-/
namespace BoundaryTag.Bytes

/-- The byte at a position; zero past the end of the array. -/
def get (bytes : ByteArray) (position : Nat) : UInt8 :=
  if inside : position < bytes.size then bytes[position] else 0

/-- The array followed by `count` zeros. -/
def pad (bytes : ByteArray) (count : Nat) : ByteArray :=
  match count with
  | 0 => bytes
  | count + 1 => pad (bytes.push 0) count

def set (bytes : ByteArray) (position : Nat) (value : UInt8) : ByteArray :=
  if inside : position < bytes.size then bytes.set position value inside
  else (pad bytes (position - bytes.size)).push value

/-- Replaces `length` bytes from `position` on by `source 0`, `source 1`, …. -/
def overwrite (bytes : ByteArray) (position length : Nat) (source : Nat → UInt8) : ByteArray :=
  length.fold (fun index _ bytes => set bytes (position + index) (source index)) bytes

/-- Replaces `length` bytes from `position` on by those of another array from `start` on. What the
other array does not reach is zero, by being cut off if nothing comes after it. -/
def splice (bytes : ByteArray) (position : Nat) (source : ByteArray) (start length : Nat) :
    ByteArray :=
  let present := min length (source.size - start)
  let copied :=
    if present = 0 then bytes
    else source.copySlice start (pad bytes (position - bytes.size)) position present
  if present = length then copied
  else if copied.size ≤ position + length then copied.extract 0 (position + present)
  else overwrite copied (position + present) (length - present) fun _ => 0

/-- The number whose lowest byte is `source 0`, next byte `source 1`, up to `count` bytes. -/
def littleEndian (source : Nat → UInt8) (count : Nat) : Nat :=
  match count with
  | 0 => 0
  | count + 1 => littleEndian source count + (source count).toNat <<< (8 * count)

/-- The number whose highest digits to the base 256 are those of `high`, and whose `count` lower
ones are the bytes from a position on, lowest first. -/
def numberFrom (bytes : ByteArray) (position count high : Nat) : Nat :=
  match count with
  | 0 => high
  | count + 1 =>
    numberFrom bytes position count (256 * high + (get bytes (position + count)).toNat)

/-- The byte of a number that stands at an index, the lowest byte at zero. -/
def byteOf (number index : Nat) : UInt8 :=
  UInt8.ofNat (number >>> (8 * index))

theorem size_pad (bytes : ByteArray) (count : Nat) :
    (pad bytes count).size = bytes.size + count := by
  induction count generalizing bytes with
  | zero => rfl
  | succ count ih => simp [pad, ih, ByteArray.size_push]; omega

theorem get_eq_getD (bytes : ByteArray) (position : Nat) :
    get bytes position = bytes.data[position]?.getD 0 := by
  unfold get
  split
  next inside => simp [ByteArray.getElem_eq_getElem_data, Array.getElem?_eq_getElem inside]
  next outside => simp [Array.getElem?_eq_none (Nat.le_of_not_lt outside)]

/-- Past the end all bytes are zero. -/
theorem get_of_size_le (bytes : ByteArray) (position : Nat) (outside : bytes.size ≤ position) :
    get bytes position = 0 :=
  dif_neg (Nat.not_lt.mpr outside)

theorem get_push (bytes : ByteArray) (value : UInt8) (position : Nat) :
    get (bytes.push value) position =
      if position = bytes.size then value else get bytes position := by
  simp only [get_eq_getD, ByteArray.data_push, Array.getElem?_push, ByteArray.size]
  split <;> rfl

/-- Padding changes no byte, because the bytes past the end were zero already. -/
theorem get_pad (bytes : ByteArray) (count position : Nat) :
    get (pad bytes count) position = get bytes position := by
  induction count generalizing bytes with
  | zero => rfl
  | succ count ih =>
    rw [pad, ih, get_push]
    split
    next last => simp [get, last]
    next => rfl

/-- Replacing a byte changes that byte and no other. -/
theorem get_set (bytes : ByteArray) (position : Nat) (value : UInt8) (other : Nat) :
    get (set bytes position value) other =
      if other = position then value else get bytes other := by
  unfold set
  split
  next inside =>
    simp only [get_eq_getD, ByteArray.set, Array.getElem?_set, eq_comm (a := other)]
    split <;> rfl
  next outside =>
    rw [get_push, get_pad, size_pad]
    have place : bytes.size + (position - bytes.size) = position := by omega
    rw [place]

/-- Overwriting a range changes the bytes of that range and no others. -/
theorem get_overwrite (bytes : ByteArray) (position length : Nat) (source : Nat → UInt8)
    (other : Nat) :
    get (overwrite bytes position length source) other =
      if position ≤ other ∧ other < position + length then source (other - position)
      else get bytes other := by
  unfold overwrite
  induction length with
  | zero => rw [Nat.fold_zero, if_neg (by omega)]
  | succ length ih =>
    rw [Nat.fold_succ, get_set, ih]
    by_cases last : other = position + length
    · subst last; simp
    · rw [if_neg last]
      have bounds : (position ≤ other ∧ other < position + length)
          ↔ (position ≤ other ∧ other < position + (length + 1)) := by omega
      simp only [bounds]

/-- Past the point where an array is cut off all bytes are zero. -/
theorem get_extract (bytes : ByteArray) (stop position : Nat) :
    get (bytes.extract 0 stop) position = if position < stop then get bytes position else 0 := by
  rw [get_eq_getD, get_eq_getD, ByteArray.data_extract, Array.getElem?_extract, Nat.zero_add]
  by_cases inside : position < stop
  · rw [if_pos inside]
    split
    next => rfl
    next outside => rw [Array.getElem?_eq_none (by omega)]
  · rw [if_neg (by omega), if_neg inside]
    rfl

/-- A slice of the source takes the place of the range it is copied to. -/
theorem get_copySlice (bytes : ByteArray) (position : Nat) (source : ByteArray)
    (start length : Nat) (reached : position ≤ bytes.size)
    (present : start + length ≤ source.size) (other : Nat) :
    get (source.copySlice start bytes position length) other =
      if position ≤ other ∧ other < position + length then get source (start + (other - position))
      else get bytes other := by
  simp only [get_eq_getD, ByteArray.copySlice, Array.getElem?_append, Array.getElem?_extract,
    Array.size_append, Array.size_extract]
  simp only [ByteArray.size] at reached present
  -- Before the range, inside of it and behind it.
  by_cases before : other < position
  · rw [if_pos (by omega), if_pos (by omega), if_pos (by omega), if_neg (by omega), Nat.zero_add]
  · by_cases inside : other < position + length
    · rw [if_pos (by omega), if_neg (by omega), if_pos (by omega), if_pos (by omega)]
      congr 3
      omega
    · rw [if_neg (show ¬(position ≤ other ∧ other < position + length) by omega),
        if_neg (by omega)]
      split
      next =>
        congr 2
        omega
      next => rw [Array.getElem?_eq_none (by omega)]

/-- Splicing changes the bytes of the range and no others. -/
theorem get_splice (bytes : ByteArray) (position : Nat) (source : ByteArray)
    (start length other : Nat) :
    get (splice bytes position source start length) other =
      if position ≤ other ∧ other < position + length then get source (start + (other - position))
      else get bytes other := by
  unfold splice
  simp only []
  -- What the source reaches is copied; what is left of the range is cut off or set to zero.
  generalize copy : (if min length (source.size - start) = 0 then bytes
    else source.copySlice start (pad bytes (position - bytes.size)) position
      (min length (source.size - start))) = copied
  have copies : get copied other =
      if position ≤ other ∧ other < position + min length (source.size - start) then
        get source (start + (other - position))
      else get bytes other := by
    subst copy
    split
    next none => rw [if_neg (by omega)]
    next =>
      rw [get_copySlice _ _ _ _ _ (by rw [size_pad]; omega) (by omega), get_pad]
  by_cases present : other < position + min length (source.size - start)
  · split
    next whole => rw [copies, whole]
    next =>
      have kept : get copied other =
          if position ≤ other ∧ other < position + length then
            get source (start + (other - position))
          else get bytes other := by
        rw [copies]
        by_cases before : other < position
        · rw [if_neg (by omega), if_neg (by omega)]
        · rw [if_pos (by omega), if_pos (by omega)]
      split
      next => rw [get_extract, if_pos present, kept]
      next => rw [get_overwrite, if_neg (by omega), kept]
  · by_cases range : position ≤ other ∧ other < position + length
    · have blank := get_of_size_le source (start + (other - position)) (by omega)
      rw [if_pos range, blank]
      rw [if_neg (by omega)]
      split
      next => rw [get_extract, if_neg present]
      next => rw [get_overwrite, if_pos (by omega)]
    · rw [if_neg range]
      rw [if_neg (by omega)] at copies
      split
      next => exact copies
      next =>
        split
        next ends =>
          rw [get_extract, if_neg present, ← copies, get_of_size_le copied other (by omega)]
        next => rw [get_overwrite, if_neg (by omega), copies]

/-- Only the bytes up to the count matter. -/
theorem littleEndian_congr (source other : Nat → UInt8) (count : Nat)
    (agree : ∀ index, index < count → source index = other index) :
    littleEndian source count = littleEndian other count := by
  induction count with
  | zero => rfl
  | succ count ih =>
    rw [littleEndian, littleEndian, agree count (Nat.lt_succ_self count),
      ih fun index below => agree index (Nat.lt_succ_of_lt below)]

/-- Taking the highest byte first comes to the same number as taking the lowest first. -/
theorem numberFrom_eq (bytes : ByteArray) (position count high : Nat) :
    numberFrom bytes position count high =
      littleEndian (fun index => get bytes (position + index)) count + high <<< (8 * count) := by
  induction count generalizing high with
  | zero => simp [numberFrom, littleEndian]
  | succ count ih =>
    -- The next byte is the lowest digit of what stands above the bytes that are left.
    have longer : 8 * (count + 1) = 8 * count + 8 := by omega
    have step : high <<< (8 * (count + 1)) = (256 * high) <<< (8 * count) := by
      rw [longer, Nat.shiftLeft_eq, Nat.shiftLeft_eq, Nat.pow_add, Nat.mul_comm 256 high,
        Nat.mul_assoc high, Nat.mul_comm 256]
    rw [numberFrom, littleEndian, ih, step]
    simp only [Nat.shiftLeft_eq, Nat.add_mul]
    omega

/-- The low bytes of a number make up its remainder. -/
theorem littleEndian_byteOf (number count : Nat) :
    littleEndian (byteOf number) count = number % (1 <<< (8 * count)) := by
  induction count with
  | zero => simp [littleEndian, Nat.mod_one]
  | succ count ih =>
    have byte : (byteOf number count).toNat = number >>> (8 * count) % 256 := by
      simp [byteOf]
    have longer : 8 * (count + 1) = 8 * count + 8 := by omega
    rw [littleEndian, ih, byte, longer]
    simp only [Nat.shiftLeft_eq, Nat.shiftRight_eq_div_pow, Nat.one_mul, Nat.pow_add]
    rw [Nat.mod_mul, Nat.mul_comm (_ % 256)]

end BoundaryTag.Bytes
