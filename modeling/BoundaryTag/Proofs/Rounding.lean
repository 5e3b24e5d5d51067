import BoundaryTag.Proofs.Outcomes
import Mathlib.Algebra.Order.Floor.Div

/-!
# Rounding

Rounding up adds the unit first and takes one away then, so it needs room for a whole unit between
the value and the limit of a word. With that room it answers with the least multiple from the value
on, and a larger value is not rounded to less.

The last multiple below the limit has no such room. It is what the values just below it are rounded
to, so these can be rounded once but not twice. All other values can, and the second time changes
nothing.
-/
namespace BoundaryTag

/-- The multiples of a unit from a value on. -/
def multiplesFrom (unit value : Nat) : Set Nat :=
  {multiple | unit ∣ multiple ∧ value ≤ multiple}

variable {unit bits value rounded size : Nat}

theorem isLeast_roundUp (positive : 0 < unit) (value : Nat) :
    IsLeast (multiplesFrom unit value) ((value + unit - 1) / unit * unit) := by
  -- Adding the unit less one before the division makes it a division with the ceiling.
  have covers (count : Nat) : (value + unit - 1) / unit ≤ count ↔ value ≤ unit * count :=
    ceilDiv_le_iff_le_mul positive
  constructor
  · have above := (covers _).mp (Nat.le_refl _)
    rw [Nat.mul_comm] at above
    exact ⟨Nat.dvd_mul_left _ _, above⟩
  · rintro _ ⟨⟨count, rfl⟩, above⟩
    rw [Nat.mul_comm]
    exact Nat.mul_le_mul_left unit ((covers count).mpr above)

/-- A multiple is the least one from itself on. -/
theorem isLeast_of_dvd (multiple : unit ∣ rounded) : IsLeast (multiplesFrom unit rounded) rounded :=
  ⟨⟨multiple, Nat.le_refl rounded⟩, fun _ member => member.2⟩

/-- With room for a unit, rounding up answers with the least multiple from the value on. -/
theorem alignTo_spec (room : value + 2 ^ bits < wordLimit) :
    ∃ rounded, alignTo value (2 ^ bits) = .ok rounded
      ∧ IsLeast (multiplesFrom (2 ^ bits) value) rounded :=
  ⟨_, alignTo_of_lt value bits room, isLeast_roundUp (Nat.two_pow_pos bits) value⟩

/-- With room for a unit, a multiple stays as it is. -/
theorem alignTo_of_dvd (multiple : 2 ^ bits ∣ rounded) (room : rounded + 2 ^ bits < wordLimit) :
    alignTo rounded (2 ^ bits) = .ok rounded := by
  obtain ⟨same, answers, least⟩ := alignTo_spec room
  rw [answers, least.unique (isLeast_of_dvd multiple)]

theorem two_pow_dvd_wordLimit (below : 2 ^ bits < wordLimit) : 2 ^ bits ∣ wordLimit := by
  have limit : wordLimit = 2 ^ 64 := rfl
  rw [limit] at below ⊢
  have shorter : bits < 64 := (Nat.pow_lt_pow_iff_right (by decide)).mp below
  exact Nat.pow_dvd_pow 2 (Nat.le_of_lt shorter)

/-- The least multiple has room for a unit behind it unless it is the last one below the limit,
which it is for the values above the last but one. -/
theorem room_of_isLeast (divides : unit ∣ wordLimit) (room : value + unit < wordLimit)
    (least : IsLeast (multiplesFrom unit value) rounded) :
    (value + 2 * unit ≤ wordLimit → rounded + unit < wordLimit)
      ∧ (wordLimit < value + 2 * unit → rounded + unit = wordLimit) := by
  have positive : 0 < unit := Nat.pos_of_dvd_of_pos divides (by decide)
  obtain ⟨⟨multiple, above⟩, smallest⟩ := least
  constructor
  · intro early
    -- The last multiple but one is far enough from the limit.
    have twice : unit ∣ wordLimit - 2 * unit := Nat.dvd_sub divides (Nat.dvd_mul_left unit 2)
    have below : rounded ≤ wordLimit - 2 * unit := smallest ⟨twice, by omega⟩
    omega
  · intro late
    have once : unit ∣ wordLimit - unit := Nat.dvd_sub divides (Nat.dvd_refl unit)
    have below : rounded ≤ wordLimit - unit := smallest ⟨once, by omega⟩
    -- What is left up to the limit is a multiple too, and less than two units.
    have gap : unit ∣ wordLimit - rounded := Nat.dvd_sub divides multiple
    have width := Nat.eq_of_dvd_of_lt_two_mul (by omega) gap (by omega)
    omega

/-- Rounding a second time changes nothing if there is room for it, which there is unless the value
is more than the last multiple but one. -/
theorem alignTo_again (room : value + 2 ^ bits < wordLimit)
    (least : IsLeast (multiplesFrom (2 ^ bits) value) rounded) :
    (value + 2 * 2 ^ bits ≤ wordLimit → alignTo rounded (2 ^ bits) = .ok rounded)
      ∧ (wordLimit < value + 2 * 2 ^ bits → alignTo rounded (2 ^ bits) = .error .overflow) := by
  have divides := two_pow_dvd_wordLimit (Nat.lt_of_le_of_lt (Nat.le_add_left _ value) room)
  obtain ⟨early, late⟩ := room_of_isLeast divides room least
  constructor
  · intro below
    exact alignTo_of_dvd least.1.1 (early below)
  · intro above
    exact alignTo_of_le rounded (2 ^ bits) (Nat.le_of_eq (late above).symm)

/-- A smaller value is not rounded up to more. -/
theorem alignTo_mono {small : Nat} (ordered : small ≤ value) (room : value + 2 ^ bits < wordLimit)
    (least : IsLeast (multiplesFrom (2 ^ bits) value) rounded) :
    ∃ lower, alignTo small (2 ^ bits) = .ok lower ∧ lower ≤ rounded := by
  have enough : small + 2 ^ bits < wordLimit := by omega
  obtain ⟨lower, answers, -, smallest⟩ := alignTo_spec enough
  have above : small ≤ rounded := Nat.le_trans ordered least.1.2
  exact ⟨lower, answers, smallest ⟨least.1.1, above⟩⟩

namespace Heap

/-- The size of a block for no bytes is a block size already, so no size is treated on its own. -/
theorem adjustedSize_spec (fits : size ≤ wordLimit - 1 - 24) :
    ∃ width, adjustedSize size = .ok (.ok width) ∧ IsLeast (multiplesFrom 16 (size + 8)) width := by
  refine ⟨blockSize size, ?_, isLeast_blockSize size⟩
  rcases Nat.eq_zero_or_pos size with rfl | positive
  · rfl
  · exact adjustedSize_of_le fits positive

theorem adjustedSize_tooLarge_iff (size : Nat) :
    adjustedSize size = .ok (.error (.tooLarge size)) ↔ wordLimit - 1 - 24 < size := by
  constructor
  · intro refused
    by_contra fits
    obtain ⟨width, adjusted, -⟩ := adjustedSize_spec (Nat.le_of_not_lt fits)
    exact nomatch adjusted.symm.trans refused
  · exact adjustedSize_of_lt

end Heap

/-- With room for a unit that is a power of two, rounding up does not overflow and answers with the
least multiple from the value on. Doing so again changes nothing unless the value is more than the
last multiple but one, and overflows for these values, all of which are rounded up to the last
multiple. A smaller value is not rounded up to more. The size of a block is the least multiple of 16
with room for the payload and a header, and is refused exactly for the last 24 sizes and what is no
word. -/
theorem rounding_exact (bits value size : Nat) :
    (value + 2 ^ bits < wordLimit → ∃ rounded,
        alignTo value (2 ^ bits) = .ok rounded
          ∧ IsLeast (multiplesFrom (2 ^ bits) value) rounded
          ∧ (value + 2 * 2 ^ bits ≤ wordLimit → alignTo rounded (2 ^ bits) = .ok rounded)
          ∧ (wordLimit < value + 2 * 2 ^ bits → alignTo rounded (2 ^ bits) = .error .overflow)
          ∧ ∀ small ≤ value, ∃ lower,
            alignTo small (2 ^ bits) = .ok lower ∧ lower ≤ rounded)
      ∧ (Heap.adjustedSize size = .ok (.error (.tooLarge size)) ↔ wordLimit - 1 - 24 < size)
      ∧ (size ≤ wordLimit - 1 - 24 → ∃ width, Heap.adjustedSize size = .ok (.ok width)
        ∧ IsLeast (multiplesFrom 16 (size + 8)) width) := by
  refine ⟨fun room => ?_, Heap.adjustedSize_tooLarge_iff size, Heap.adjustedSize_spec⟩
  obtain ⟨rounded, answers, least⟩ := alignTo_spec room
  obtain ⟨unchanged, overflows⟩ := alignTo_again room least
  exact ⟨rounded, answers, least, unchanged, overflows,
    fun _ ordered => alignTo_mono ordered room least⟩

/-- The last value that can be rounded to a multiple of 16 twice, and the last size that is met. -/
theorem rounding_exact_at_top :
    (∃ rounded, alignTo (wordLimit - 32) (2 ^ 4) = .ok rounded
        ∧ alignTo rounded (2 ^ 4) = .ok rounded)
      ∧ ∃ width, Heap.adjustedSize (wordLimit - 25) = .ok (.ok width)
        ∧ IsLeast (multiplesFrom 16 (wordLimit - 25 + 8)) width := by
  obtain ⟨rounds, -, adjusts⟩ := rounding_exact 4 (wordLimit - 32) (wordLimit - 25)
  obtain ⟨rounded, once, -, again, -⟩ := rounds (by decide)
  exact ⟨⟨rounded, once, again (by decide)⟩, adjusts (by decide)⟩

/-- The largest block size that is a word is what a value with room for a unit of 16 is rounded up
to, and what a size that is not refused is adjusted to. Rounding it again overflows. -/
theorem rounding_overflows_again :
    wordLimit - 17 + 16 < wordLimit ∧ alignTo (wordLimit - 17) 16 = .ok (wordLimit - 16)
      ∧ Heap.adjustedSize (wordLimit - 25) = .ok (.ok (wordLimit - 16))
      ∧ alignTo (wordLimit - 16) 16 = .error .overflow :=
  ⟨by decide, rfl, rfl, rfl⟩

end BoundaryTag
