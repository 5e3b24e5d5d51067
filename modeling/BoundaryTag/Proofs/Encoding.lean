import BoundaryTag.Header
import Mathlib.Algebra.Group.Nat.Defs

/-!
# Word arithmetic and header words

Checked arithmetic answers as plain arithmetic does while it stays in the range of a machine word,
and rounding up to the alignment unit is the least multiple of 16 from a value on. A header word and
its contents determine each other.
-/
namespace BoundaryTag

@[simp] theorem wordSize_eq : wordSize = 8 := rfl

@[simp] theorem alignment_eq : alignment = 16 := rfl

@[simp] theorem minBlockSize_eq : minBlockSize = 16 := rfl

@[simp] theorem linkedBlockSize_eq : linkedBlockSize = 32 := rfl

theorem addWord_of_lt (left right : Nat) (below : left + right < wordLimit) :
    addWord left right = .ok (left + right) :=
  if_pos below

theorem addWord_of_le (left right : Nat) (above : wordLimit ≤ left + right) :
    addWord left right = .error .overflow :=
  if_neg (Nat.not_lt.mpr above)

theorem addWord_ok_iff (left right sum : Nat) :
    addWord left right = .ok sum ↔ left + right = sum ∧ sum < wordLimit := by
  unfold addWord
  split
  next below =>
    rw [Except.ok.injEq]
    omega
  next above =>
    simp only [reduceCtorEq, false_iff]
    omega

theorem subWord_of_le (left right : Nat) (below : right ≤ left) :
    subWord left right = .ok (left - right) :=
  if_pos below

/-- Clearing the lowest bits rounds down to a multiple of a power of two. -/
theorem sub_and_mask (value bits : Nat) :
    value - (value &&& (2 ^ bits - 1)) = value / 2 ^ bits * 2 ^ bits := by
  have low : value &&& (2 ^ bits - 1) = value % 2 ^ bits :=
    Nat.and_two_pow_sub_one_eq_mod value bits
  rw [low, Nat.sub_eq_of_eq_add]
  exact (Nat.div_add_mod' value (2 ^ bits)).symm

/-- A value that leaves room for one more unit is rounded up. -/
theorem alignTo_of_lt (value bits : Nat) (below : value + 2 ^ bits < wordLimit) :
    alignTo value (2 ^ bits) = .ok ((value + 2 ^ bits - 1) / 2 ^ bits * 2 ^ bits) := by
  have sum : addWord value (2 ^ bits) = .ok (value + 2 ^ bits) := addWord_of_lt _ _ below
  have top : subWord (value + 2 ^ bits) 1 = .ok (value + 2 ^ bits - 1) :=
    subWord_of_le _ _ (Nat.le_add_left_of_le Nat.one_le_two_pow)
  have mask : subWord (2 ^ bits) 1 = .ok (2 ^ bits - 1) := subWord_of_le _ _ Nat.one_le_two_pow
  have rounded := sub_and_mask (value + 2 ^ bits - 1) bits
  simp only [alignTo, sum, top, mask, bind, Except.bind, pure, Except.pure, rounded]

/-- Without that room rounding up fails, even if the value is a multiple of the unit already. -/
theorem alignTo_of_le (value unit : Nat) (above : wordLimit ≤ value + unit) :
    alignTo value unit = .error .overflow := by
  simp only [alignTo, addWord_of_le value unit above, bind, Except.bind]

theorem align_of_lt (value : Nat) (below : value + 16 < wordLimit) :
    align value = .ok ((value + 15) / 16 * 16) :=
  alignTo_of_lt value 4 below

theorem align_of_le (value : Nat) (above : wordLimit ≤ value + 16) :
    align value = .error .overflow :=
  alignTo_of_le value 16 above

namespace Header

theorem size_eq (header : Header) : header.size = header.units * 16 := rfl

theorem size_mod (header : Header) : header.size % 16 = 0 := by
  rw [size_eq]
  omega

/-- The flags of a header take less room than one unit. -/
theorem toWord_bounds (header : Header) :
    header.size ≤ header.toWord ∧ header.toWord < header.size + 16 := by
  obtain ⟨units, allocated, prevAllocated, prevMinimal, reserved⟩ := header
  have first := Bool.toNat_lt allocated
  have second := Bool.toNat_lt prevAllocated
  have third := Bool.toNat_lt prevMinimal
  have fourth := Bool.toNat_lt reserved
  simp only [toWord]
  omega

/-- The header of a size that is a machine word is a machine word. -/
theorem toWord_lt (header : Header) (below : header.size < wordLimit) :
    header.toWord < wordLimit := by
  have bounds := header.toWord_bounds
  have aligned := header.size_mod
  -- The limit is a multiple of 16, so the flags do not carry a size below it past it.
  simp only [wordLimit] at *
  omega

@[simp] theorem ofWord_toWord (header : Header) : ofWord header.toWord = header := by
  obtain ⟨units, allocated, prevAllocated, prevMinimal, reserved⟩ := header
  -- A bit of the word is a remainder of a quotient, so each choice of flags leaves arithmetic.
  simp only [ofWord, toWord, size_eq, Nat.testBit_eq_decide_div_mod_eq, alignment_eq, mk.injEq]
  cases allocated <;> cases prevAllocated <;> cases prevMinimal <;> cases reserved <;>
    simp <;> omega

@[simp] theorem toWord_ofWord (word : Nat) : (ofWord word).toWord = word := by
  have bit (index : Nat) : (word.testBit index).toNat = word / 2 ^ index % 2 := by
    rw [Nat.toNat_testBit]
  simp only [toWord, ofWord, size_eq, bit, alignment_eq]
  omega

/-- Two headers in the same word are the same. -/
theorem toWord_inj (left right : Header) : left.toWord = right.toWord ↔ left = right := by
  constructor
  · intro same
    rw [← ofWord_toWord left, same, ofWord_toWord]
  · rintro rfl
    rfl

/-- Packing the size and the flags of a header gives it back. -/
theorem pack_of_clean (header : Header) (clean : header.reserved = false) :
    pack header.size header.allocated header.prevAllocated header.prevMinimal = .ok header := by
  obtain ⟨units, allocated, prevAllocated, prevMinimal, reserved⟩ := header
  subst clean
  simp [pack, size_eq]

end Header

end BoundaryTag
