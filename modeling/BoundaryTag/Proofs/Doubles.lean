import BoundaryTag.Utilization
import BoundaryTag.Text.Decimal
import BoundaryTag.Word
import Mathlib

/-!
# Shares as doubles

A share is the quotient of two machine words that are both rounded to doubles first, and then it is
rounded itself. Neither rounding takes it past one: rounding keeps the order of the words, and one
is a double.

Rounding cuts a mantissa at its 53rd bit. It may run over to the next power of two there, which
leaves a mantissa of the least size at the next exponent.
-/
namespace BoundaryTag

open Text Float.Model Float.Model.UnpackedFloat

/-! ## Rounding a quotient -/

theorem roundQuotient_bounds (numerator denominator : Nat) :
    numerator / denominator ≤ roundQuotient numerator denominator
      ∧ roundQuotient numerator denominator ≤ numerator / denominator + 1 := by
  unfold roundQuotient
  simp only
  split <;> omega

theorem roundQuotient_mono {small large : Nat} (ordered : small ≤ large) (denominator : Nat) :
    roundQuotient small denominator ≤ roundQuotient large denominator := by
  have bounds := roundQuotient_bounds small denominator
  have others := roundQuotient_bounds large denominator
  have quotients : small / denominator ≤ large / denominator := Nat.div_le_div_right ordered
  rcases Nat.eq_or_lt_of_le quotients with same | less
  · -- The remainders are in order then.
    have first := Nat.div_add_mod small denominator
    have second := Nat.div_add_mod large denominator
    rw [same] at first
    unfold roundQuotient
    simp only [same]
    split <;> split <;> omega
  · omega

/-! ## Shifting bits out -/

theorem mantissa_shiftRight (extended : ExtendedMantissa) (count : Nat) :
    (extended >>> count).mantissa = extended.mantissa / 2 ^ count := by
  induction count with
  | zero => rw [Nat.pow_zero, Nat.div_one]; rfl
  | succ count ih =>
    rw [Nat.pow_succ, ← Nat.div_div_eq_div_mul, ← ih]
    rfl

/-- Of the bits that are shifted out the last one is kept, and whether any other was set. -/
theorem shiftRight_succ (number count : Nat) :
    (⟨number, false, false⟩ : ExtendedMantissa) >>> (count + 1)
      = ⟨number / 2 ^ (count + 1), number / 2 ^ count % 2 != 0, number % 2 ^ count != 0⟩ := by
  induction count with
  | zero => simp [HShiftRight.hShiftRight, Nat.repeat, ExtendedMantissa.shiftRightOne, Nat.mod_one]
  | succ count ih =>
    have step : (⟨number, false, false⟩ : ExtendedMantissa) >>> (count + 1 + 1)
        = ((⟨number, false, false⟩ : ExtendedMantissa) >>> (count + 1)).shiftRightOne := rfl
    have rest : number % 2 ^ (count + 1)
        = number % 2 ^ count + 2 ^ count * (number / 2 ^ count % 2) := Nat.mod_pow_succ
    have sticky : (number / 2 ^ count % 2 != 0 || number % 2 ^ count != 0)
        = (number % 2 ^ (count + 1) != 0) := by
      rw [rest]
      rcases Nat.mod_two_eq_zero_or_one (number / 2 ^ count) with bit | bit
      · rw [bit, Nat.mul_zero, Nat.add_zero]
        rfl
      · rw [bit]
        exact (bne_iff_ne.mpr (by have := Nat.two_pow_pos count; omega)).symm
    rw [step, ih, ExtendedMantissa.shiftRightOne, sticky, Nat.div_div_eq_div_mul, ← Nat.pow_succ]

theorem roundedMantissa_eq (number count : Nat) :
    ((⟨number, false, false⟩ : ExtendedMantissa) >>> count).roundedMantissa
      = roundQuotient number (2 ^ count) := by
  cases count with
  | zero =>
    have whole : roundQuotient number (2 ^ 0) = number := by simp [roundQuotient, Nat.mod_one]
    rw [whole]
    rfl
  | succ count =>
    have split : number % 2 ^ (count + 1)
        = number % 2 ^ count + 2 ^ count * (number / 2 ^ count % 2) := Nat.mod_pow_succ
    have low := Nat.mod_lt number (Nat.two_pow_pos count)
    rw [shiftRight_succ, roundQuotient, split]
    generalize number / 2 ^ (count + 1) = quotient
    generalize number % 2 ^ count = rest at low
    -- The last of the bits that are left out is worth half a unit.
    rcases Nat.mod_two_eq_zero_or_one (number / 2 ^ count) with bit | bit
    · rw [bit, if_neg (by omega)]
      cases rest <;> rfl
    · rw [bit]
      cases rest with
      | zero =>
        have kept : (⟨quotient, 1 != 0, 0 != 0⟩ : ExtendedMantissa).roundedMantissa
            = quotient + quotient % 2 := rfl
        rw [kept]
        split <;> omega
      | succ rest =>
        rw [if_pos (by omega)]
        rfl

theorem roundedMantissa_bounds (extended : ExtendedMantissa) :
    extended.mantissa ≤ extended.roundedMantissa
      ∧ extended.roundedMantissa ≤ extended.mantissa + 1 := by
  obtain ⟨mantissa, round, sticky⟩ := extended
  cases round <;> cases sticky <;>
    simp [ExtendedMantissa.roundedMantissa, ExtendedMantissa.accuracy,
      Accuracy.roundToNearestEven]
  omega

/-! ## Normal doubles -/

/-- Mantissa and exponent of a positive double of which all bits of the mantissa are in use. -/
structure Normal (mantissa : Nat) (exponent : Int) : Prop where
  low : 2 ^ 52 ≤ mantissa
  high : mantissa < 2 ^ 53
  least : -1074 ≤ exponent
  most : exponent ≤ 971

variable {mantissa count : Nat} {exponent : Int}

theorem log2_of_bounds (low : 2 ^ 52 ≤ mantissa) (high : mantissa < 2 ^ 53) : mantissa.log2 = 52 :=
  (Nat.log2_eq_iff (by omega)).mpr ⟨low, high⟩

theorem Normal.log2 (normal : Normal mantissa exponent) : mantissa.log2 = 52 :=
  log2_of_bounds normal.low normal.high

theorem toNat_implicit (low : 2 ^ 52 ≤ mantissa) (high : mantissa < 2 ^ 53) :
    (1#1 ++ BitVec.ofNat 52 mantissa).toNat = mantissa := by
  have rest : (BitVec.ofNat 52 mantissa).toNat = mantissa % 2 ^ 52 := BitVec.toNat_ofNat _ _
  rw [BitVec.toNat_append, ← Nat.shiftLeft_add_eq_or_of_lt (BitVec.isLt _), rest]
  change 1 * 2 ^ 52 + mantissa % 2 ^ 52 = mantissa
  omega

theorem Normal.pack_eq (normal : Normal mantissa exponent) (positive : 0 < mantissa) {biased : Nat}
    (same : exponent + 1075 = biased) :
    UnpackedFloat.pack Format.binary64 (.finite .positive mantissa exponent positive)
      = packComponents Format.binary64 .positive (BitVec.ofNat 11 biased)
          (BitVec.ofNat 52 mantissa) := by
  have := normal.least
  have := normal.most
  have bias : (exponent + Format.binary64.exponentBias
      + Format.binary64.mantissaBitsWithoutImplicit).toNat = biased := by
    simp only [Format.exponentBias]
    omega
  have bits : mantissa.log2 + 1 = Format.binary64.mantissaBits := by
    rw [normal.log2]
    rfl
  simp only [UnpackedFloat.pack, bias]
  rw [if_neg (by omega), if_pos bits]

theorem Normal.unpack_pack (normal : Normal mantissa exponent) (positive : 0 < mantissa) :
    (Float.Model.pack (.finite .positive mantissa exponent positive)).unpack
      = .finite .positive mantissa exponent positive := by
  have := normal.least
  have := normal.most
  obtain ⟨biased, same⟩ : ∃ biased : Nat, exponent + 1075 = biased :=
    ⟨(exponent + 1075).toNat, by omega⟩
  have value : (BitVec.ofNat 11 biased).toNat = biased := by
    rw [BitVec.toNat_ofNat, Nat.mod_eq_of_lt (by omega)]
  -- The exponent is neither that of an infinity nor that of a zero.
  have finite : BitVec.ofNat 11 biased ≠ -1#11 := by
    intro ones
    rw [ones] at value
    have : (-1#11 : BitVec 11).toNat = 2047 := rfl
    omega
  have nonzero : BitVec.ofNat 11 biased ≠ 0#11 := by
    intro zeros
    rw [zeros] at value
    have : (0#11 : BitVec 11).toNat = 0 := rfl
    omega
  change UnpackedFloat.unpack Format.binary64 (UnpackedFloat.pack Format.binary64 _) = _
  rw [normal.pack_eq positive same, UnpackedFloat.unpack]
  simp only [unpackMantissa_packComponents, unpackExponent_packComponents,
    unpackSign_packComponents, if_neg finite, if_neg nonzero, value,
    toNat_implicit normal.low normal.high]
  congr 1
  simp only [Format.exponentBias]
  omega

/-- Positive doubles are in the order of their exponents and then of their mantissas. -/
theorem finite_le {other : Nat} {power : Int} {positive : 0 < mantissa} {otherPositive : 0 < other}
    (ordered : exponent < power ∨ exponent = power ∧ mantissa ≤ other) :
    UnpackedFloat.le (.finite .positive mantissa exponent positive)
      (.finite .positive other power otherPositive) = true := by
  change ((compare exponent power).then (compare mantissa other)).isLE = true
  rcases ordered with less | ⟨rfl, le⟩
  · rw [Int.compare_eq_lt.mpr less]
    rfl
  · rw [Int.compare_eq_eq.mpr rfl]
    exact Nat.isLE_compare.mpr le

/-! ## Rounding to a double -/

/-- The mantissa and the exponent that a rounded mantissa and its exponent are brought to. -/
inductive Carries (rounded : Nat) (exponent : Int) : Nat → Int → Prop
  | kept (low : 2 ^ 52 ≤ rounded) (high : rounded < 2 ^ 53) :
      Carries rounded exponent rounded exponent
  | carried (full : rounded = 2 ^ 53) : Carries rounded exponent (2 ^ 52) (exponent + 1)

theorem Carries.normal {rounded : Nat} {power : Int}
    (carries : Carries rounded exponent mantissa power) (least : -1074 ≤ exponent)
    (most : exponent ≤ 970) : Normal mantissa power := by
  cases carries with
  | kept low high => exact ⟨low, high, least, by omega⟩
  | carried full => exact ⟨by omega, by omega, by omega, by omega⟩

theorem shiftToTargetExponent_eq (accuracy : Accuracy) (width : mantissa.log2 = 52 + count)
    (least : -1074 ≤ exponent + count) :
    shiftToTargetExponent Format.binary64 mantissa exponent accuracy
      = (ExtendedMantissa.ofMantissaAndAccuracy mantissa accuracy >>> count, exponent + count) := by
  have target : Format.binary64.targetExponent (totalExponent mantissa exponent)
      = exponent + count := by
    simp only [Format.targetExponent, totalExponent, Format.mantissaBits, Format.minExponent, width]
    omega
  have amount : (exponent + count - exponent).toNat = count := by omega
  rw [shiftToTargetExponent, target]
  simp only [shiftToExponent, amount]

/-- A rounded mantissa that has run over is shifted once more. -/
theorem shift_carries (low : 2 ^ 52 ≤ mantissa) (high : mantissa ≤ 2 ^ 53)
    (least : -1074 ≤ exponent) :
    ∃ final power, Carries mantissa exponent final power
      ∧ shiftToTargetExponent Format.binary64 mantissa exponent .exact
        = (⟨final, false, false⟩, power) := by
  rcases Nat.eq_or_lt_of_le high with rfl | small
  · have width : (2 ^ 53).log2 = 52 + 1 := Nat.log2_two_pow
    exact ⟨_, _, .carried rfl, shiftToTargetExponent_eq .exact width (by omega)⟩
  · have width : mantissa.log2 = 52 + 0 := log2_of_bounds low small
    refine ⟨_, _, .kept low small, ?_⟩
    rw [shiftToTargetExponent_eq .exact width (by omega), Int.natCast_zero, Int.add_zero]
    rfl

theorem mantissa_ofMantissaAndAccuracy (mantissa : Nat) (accuracy : Accuracy) :
    (ExtendedMantissa.ofMantissaAndAccuracy mantissa accuracy).mantissa = mantissa := by
  cases accuracy with
  | exact => rfl
  | inexact order => cases order <;> rfl

theorem roundWithAccuracy_carries (accuracy : Accuracy) (exponent : Int)
    (width : mantissa.log2 = 52 + count) (least : -1074 ≤ exponent + count) :
    ∃ final power positive,
      Carries (ExtendedMantissa.ofMantissaAndAccuracy mantissa accuracy >>> count).roundedMantissa
          (exponent + count) final power
        ∧ roundWithAccuracy Format.binary64 .positive mantissa exponent accuracy
          = .finite .positive final power positive := by
  have bounds := roundedMantissa_bounds
    (ExtendedMantissa.ofMantissaAndAccuracy mantissa accuracy >>> count)
  rw [mantissa_shiftRight, mantissa_ofMantissaAndAccuracy] at bounds
  have nonzero : mantissa ≠ 0 := by
    rintro rfl
    rw [Nat.log2_zero] at width
    omega
  obtain ⟨low, high⟩ := (Nat.log2_eq_iff nonzero).mp width
  have unit := Nat.two_pow_pos count
  have enough : 2 ^ 52 ≤ mantissa / 2 ^ count := by
    rw [Nat.le_div_iff_mul_le unit, ← Nat.pow_add]
    exact low
  have few : mantissa / 2 ^ count < 2 ^ 53 := by
    rw [Nat.add_right_comm] at high
    rw [Nat.div_lt_iff_lt_mul unit, ← Nat.pow_add]
    exact high
  obtain ⟨final, power, carries, shifted⟩ :=
    shift_carries (Nat.le_trans enough bounds.1) (Nat.le_trans bounds.2 few) least
  have positive : 0 < final := by cases carries <;> omega
  refine ⟨final, power, positive, carries, ?_⟩
  rw [roundWithAccuracy, shiftToTargetExponent_eq accuracy width least]
  simp only [shifted]
  exact dif_neg (by omega)

/-! ## Words as doubles -/

theorem log2_shiftLeft {number : Nat} (positive : 0 < number) (count : Nat) :
    (number <<< count).log2 = number.log2 + count := by
  induction count with
  | zero => rfl
  | succ count ih =>
    have nonzero : number <<< count ≠ 0 := by
      rw [Nat.shiftLeft_eq]
      exact Nat.mul_ne_zero (by omega) (by have := Nat.two_pow_pos count; omega)
    rw [Nat.shiftLeft_succ, Nat.log2_two_mul nonzero, ih]
    rfl

/-- The leading bits of a number as its double has them. -/
def significand (number : Nat) : Nat :=
  roundQuotient (number <<< (52 - number.log2)) (2 ^ (number.log2 - 52))

theorem significand_mono {small large : Nat} (ordered : small ≤ large)
    (same : small.log2 = large.log2) : significand small ≤ significand large := by
  unfold significand
  rw [same]
  apply roundQuotient_mono
  rw [Nat.shiftLeft_eq, Nat.shiftLeft_eq]
  exact Nat.mul_le_mul_right _ ordered

theorem ofNat_carries {number : Nat} (nonzero : 0 < number) :
    ∃ final power positive, Carries (significand number) (number.log2 - 52) final power
      ∧ UnpackedFloat.ofNat Format.binary64 number = .finite .positive final power positive := by
  have target : Format.binary64.targetExponent (totalExponent number 0) = number.log2 - 52 := by
    simp only [Format.targetExponent, totalExponent, Format.mantissaBits, Format.minExponent]
    omega
  have amount : ((0 : Int) - (number.log2 - 52)).toNat = 52 - number.log2 := by omega
  have width : (number <<< (52 - number.log2)).log2 = 52 + (number.log2 - 52) := by
    rw [log2_shiftLeft nonzero]
    omega
  have sum : (0 : Int) - (52 - number.log2 : Nat) + (number.log2 - 52 : Nat)
      = number.log2 - 52 := by omega
  have rounds := roundWithAccuracy_carries .exact ((0 : Int) - (52 - number.log2 : Nat)) width
    (by omega)
  have exact : ExtendedMantissa.ofMantissaAndAccuracy (number <<< (52 - number.log2)) .exact
      = ⟨number <<< (52 - number.log2), false, false⟩ := rfl
  rw [sum, exact, roundedMantissa_eq] at rounds
  have above : compare (number : Int) 0 = .gt := Int.compare_eq_gt.mpr (by omega)
  unfold UnpackedFloat.ofNat UnpackedFloat.ofInt UnpackedFloat.normalize
  rw [above]
  simp only [Int.toNat_natCast, UnpackedFloat.round, decreaseExponent, target, amount]
  exact rounds

/-- Rounding keeps the order of two numbers. -/
theorem carries_ordered {small large left right : Nat} {leftPower rightPower : Int}
    (nonzero : 0 < small) (ordered : small ≤ large)
    (first : Carries (significand small) (small.log2 - 52) left leftPower)
    (second : Carries (significand large) (large.log2 - 52) right rightPower) :
    leftPower < rightPower ∨ leftPower = rightPower ∧ left ≤ right := by
  have logs : small.log2 ≤ large.log2 := by
    rw [Nat.le_log2 (by omega)]
    exact Nat.le_trans (Nat.log2_self_le (by omega)) ordered
  rcases Nat.eq_or_lt_of_le logs with same | less
  · have significands := significand_mono ordered same
    cases first <;> cases second <;> omega
  · -- A mantissa that runs over is not past the least one of the next exponent.
    cases first <;> cases second <;> omega

theorem toFloat_unpack {word : Nat} (nonzero : 0 < word) (machine : word < wordLimit) :
    ∃ final power, Carries (significand word) (word.log2 - 52) final power ∧ Normal final power
      ∧ power ≤ 12 ∧ -52 ≤ power
      ∧ ∃ positive, (UInt64.ofNat word).toFloat.toModel.unpack
        = .finite .positive final power positive := by
  obtain ⟨final, power, positive, carries, rounds⟩ := ofNat_carries nonzero
  have log : word.log2 < 64 := (Nat.log2_lt (by omega)).mpr machine
  have normal : Normal final power := carries.normal (by omega) (by omega)
  have value : (UInt64.ofNat word).toNat = word := UInt64.toNat_ofNat_of_lt machine
  have converted : (UInt64.ofNat word).toFloat.toModel
      = Float.Model.pack (UnpackedFloat.ofNat Format.binary64 (UInt64.ofNat word).toNat) := rfl
  refine ⟨final, power, carries, normal, ?_, ?_, positive, ?_⟩
  · cases carries <;> omega
  · cases carries <;> omega
  · rw [converted, value, rounds]
    exact normal.unpack_pack positive

/-! ## The quotient of two doubles -/

theorem divCore_eq {left right : Nat} {leftPower rightPower : Int}
    (first : Normal left leftPower) (second : Normal right rightPower)
    (least : -1021 ≤ leftPower - rightPower) :
    divCore Format.binary64 left leftPower right rightPower
      = ((left <<< 53) / right, leftPower - rightPower - 53,
          accuracyOfFraction ((left <<< 53) % right) right) := by
  have target : min (leftPower - rightPower) (Format.binary64.targetExponent
      (totalExponent left leftPower - totalExponent right rightPower))
        = leftPower - rightPower - 53 := by
    simp only [Format.targetExponent, totalExponent, Format.mantissaBits, Format.minExponent,
      first.log2, second.log2]
    omega
  have amount : (leftPower - rightPower - (leftPower - rightPower - 53)).toNat = 53 := by omega
  rw [divCore]
  simp only [target, amount]

/-- The quotient has 53 bits or one more, which it does not have if the dividend is the smaller. -/
theorem quotient_width {left right : Nat} {leftPower rightPower : Int}
    (first : Normal left leftPower) (second : Normal right rightPower) :
    ∃ count : Nat, (left * 2 ^ 53 / right).log2 = 52 + count ∧ count ≤ 1
      ∧ (left < right → count = 0) := by
  have := first.low
  have := first.high
  have := second.low
  have := second.high
  have positive : 0 < right := by omega
  have low : 2 ^ 52 ≤ left * 2 ^ 53 / right := by
    rw [Nat.le_div_iff_mul_le positive]
    omega
  have high : left * 2 ^ 53 / right < 2 ^ 54 := by
    rw [Nat.div_lt_iff_lt_mul positive]
    omega
  rcases Nat.lt_or_ge (left * 2 ^ 53 / right) (2 ^ 53) with small | large
  · exact ⟨0, log2_of_bounds low small, by decide, fun _ => rfl⟩
  · refine ⟨1, (Nat.log2_eq_iff (by omega)).mpr ⟨large, high⟩, by decide, fun less => ?_⟩
    rw [ge_iff_le, Nat.le_div_iff_mul_le positive] at large
    omega

theorem div_le_one {left right : Nat} {leftPower rightPower : Int} (leftPositive : 0 < left)
    (rightPositive : 0 < right) (first : Normal left leftPower) (second : Normal right rightPower)
    (least : -1021 ≤ leftPower - rightPower)
    (ordered : leftPower < rightPower ∨ leftPower = rightPower ∧ left ≤ right) :
    ∃ final power positive, Normal final power ∧ (power < -52 ∨ power = -52 ∧ final ≤ 2 ^ 52)
      ∧ UnpackedFloat.div Format.binary64 (.finite .positive left leftPower leftPositive)
          (.finite .positive right rightPower rightPositive)
        = .finite .positive final power positive := by
  have sign : Sign.positive / Sign.positive = Sign.positive := rfl
  simp only [UnpackedFloat.div, divCore_eq first second least, sign, Nat.shiftLeft_eq]
  by_cases same : leftPower = rightPower ∧ left = right
  · -- The quotient of a double and itself is a power of two, which is not rounded.
    obtain ⟨rfl, rfl⟩ := same
    rw [Nat.mul_div_cancel_left _ leftPositive, Nat.mul_mod_right]
    have width : (2 ^ 53).log2 = 52 + 1 := Nat.log2_two_pow
    obtain ⟨final, power, positive, carries, rounds⟩ := roundWithAccuracy_carries .exact
      (leftPower - leftPower - 53) width (by omega)
    have rounded : (ExtendedMantissa.ofMantissaAndAccuracy (2 ^ 53) .exact >>> 1).roundedMantissa
        = 2 ^ 52 := rfl
    rw [rounded] at carries
    refine ⟨final, power, positive, carries.normal (by omega) (by omega), ?_, rounds⟩
    cases carries <;> omega
  · -- Otherwise the quotient is less than one, and at most one when its mantissa carries.
    obtain ⟨count, width, few, fewer⟩ := quotient_width first second
    obtain ⟨final, power, positive, carries, rounds⟩ := roundWithAccuracy_carries
      (accuracyOfFraction (left * 2 ^ 53 % right) right) (leftPower - rightPower - 53) width
      (by omega)
    refine ⟨final, power, positive, carries.normal (by omega) (by omega), ?_, rounds⟩
    cases carries <;> omega

/-! ## Shares -/

theorem le_of_unpack {small large : Float}
    (ordered : small.toModel.unpack.le large.toModel.unpack = true) : small ≤ large :=
  decide_eq_true ordered

theorem one_unpack :
    (1 : Float).toModel.unpack = .finite .positive (2 ^ 52) (-52) (by decide) := rfl

theorem utilization_le_one {part whole : Nat} (ordered : part ≤ whole)
    (machine : whole < wordLimit) : utilization part whole ≤ 1 := by
  unfold utilization
  by_cases empty : whole = 0
  · rw [if_pos empty]
    decide
  rw [if_neg empty]
  obtain ⟨right, rightPower, second, normal, high, -, rightPositive, divisor⟩ :=
    toFloat_unpack (Nat.pos_of_ne_zero empty) machine
  apply le_of_unpack
  change (Float.Model.pack (UnpackedFloat.div Format.binary64
    (UInt64.ofNat part).toFloat.toModel.unpack
    (UInt64.ofNat whole).toFloat.toModel.unpack)).unpack.le _ = true
  rw [divisor]
  rcases Nat.eq_zero_or_pos part with rfl | nonzero
  · have dividend : (UInt64.ofNat 0).toFloat.toModel.unpack = .zero .positive := rfl
    have quotient : (Float.Model.pack (.zero .positive)).unpack = .zero .positive := rfl
    rw [dividend, one_unpack]
    change (Float.Model.pack (.zero .positive)).unpack.le _ = true
    rw [quotient]
    rfl
  · obtain ⟨left, leftPower, first, other, -, low, leftPositive, dividend⟩ :=
      toFloat_unpack nonzero (Nat.lt_of_le_of_lt ordered machine)
    obtain ⟨final, power, positive, result, small, same⟩ := div_le_one leftPositive
      rightPositive other normal (by omega) (carries_ordered nonzero ordered first second)
    rw [dividend, same, result.unpack_pack, one_unpack]
    exact finite_le small

end BoundaryTag
