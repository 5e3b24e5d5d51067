import BoundaryTag.Proofs.Encoding

/-!
# The bits of header words

A header and its word hold the same, so what a change to a header does to its word is a matter of
single bits. Packing is undone by reading the word, every word without the reserved bit is packed
from what is read off it, and replacing a flag replaces one bit.
-/
namespace BoundaryTag.Header

/-- The four lowest bits of the word are flags, and the size makes up all others. -/
theorem testBit_toWord (header : Header) (index : Nat) :
    header.toWord.testBit index =
      match index with
      | 0 => header.allocated
      | 1 => header.prevAllocated
      | 2 => header.prevMinimal
      | 3 => header.reserved
      | index + 4 => header.units.testBit index := by
  have read := ofWord_toWord header
  match index with
  | 0 => exact congrArg Header.allocated read
  | 1 => exact congrArg Header.prevAllocated read
  | 2 => exact congrArg Header.prevMinimal read
  | 3 => exact congrArg Header.reserved read
  | index + 4 =>
    -- The units stand above the flags, so dividing the flags off lowers their bits by four.
    have units : header.toWord / 2 ^ 4 = header.units := congrArg Header.units read
    simp only [← units, Nat.testBit_div_two_pow]

theorem testBit_withPrevAllocated (header : Header) (flag : Bool) (index : Nat) :
    (header.withPrevAllocated flag).toWord.testBit index =
      if index = 1 then flag else header.toWord.testBit index := by
  simp only [testBit_toWord]
  match index with
  | 0 | 1 | 2 | 3 => rfl
  | _ + 4 => simp [withPrevAllocated]

theorem testBit_withPrevMinimal (header : Header) (flag : Bool) (index : Nat) :
    (header.withPrevMinimal flag).toWord.testBit index =
      if index = 2 then flag else header.toWord.testBit index := by
  simp only [testBit_toWord]
  match index with
  | 0 | 1 | 2 | 3 => rfl
  | _ + 4 => simp [withPrevMinimal]

/-- What is read off a header. -/
structure Says (header : Header) (size : Nat)
    (allocated prevAllocated prevMinimal reserved : Bool) : Prop where
  size : header.size = size
  allocated : header.allocated = allocated
  prevAllocated : header.prevAllocated = prevAllocated
  prevMinimal : header.prevMinimal = prevMinimal
  reserved : header.reserved = reserved

/-- The word of a header after a change to it. -/
def rewrite (change : Header → Header) (word : Nat) : Nat :=
  (change (ofWord word)).toWord

@[simp] theorem ofWord_rewrite (change : Header → Header) (word : Nat) :
    ofWord (rewrite change word) = change (ofWord word) :=
  ofWord_toWord _

theorem rewrite_rewrite (first second : Header → Header) (word : Nat) :
    rewrite second (rewrite first word) = rewrite (fun header => second (first header)) word := by
  rw [rewrite, ofWord_rewrite, rewrite]

/-- A word has the bit at one index as given, and all other bits as in another word. -/
structure Replaces (index : Nat) (flag : Bool) (word changed : Nat) : Prop where
  fits : changed < wordLimit
  bits : ∀ other, changed.testBit other = if other = index then flag else word.testBit other

variable {word size : Nat}

/-- The size that is read off a word is a word too. -/
theorem size_ofWord_lt (fits : word < wordLimit) : (ofWord word).size < wordLimit := by
  have whole : (ofWord word).size = word / 16 * 16 := rfl
  omega

/-- A change to one flag of a header replaces one bit of the word that it is read off. -/
theorem replaces_rewrite {change : Header → Header} {index : Nat} {flag : Bool}
    (size : ∀ header, (change header).size = header.size)
    (bits : ∀ header other, (change header).toWord.testBit other =
      if other = index then flag else header.toWord.testBit other) (fits : word < wordLimit) :
    Replaces index flag word (rewrite change word) := by
  constructor
  · apply toWord_lt
    rw [size]
    exact size_ofWord_lt fits
  · intro other
    rw [rewrite, bits, toWord_ofWord]

/-- The header of a block size holds that size and the flags, and they are read off its word. -/
theorem pack_spec (aligned : size % 16 = 0) (fits : size < wordLimit)
    (allocated prevAllocated prevMinimal : Bool) :
    ∃ header, pack size allocated prevAllocated prevMinimal = .ok header
      ∧ header.toWord < wordLimit
      ∧ (ofWord header.toWord).Says size allocated prevAllocated prevMinimal false := by
  have whole : size / 16 * 16 = size := Nat.div_mul_cancel (Nat.dvd_of_mod_eq_zero aligned)
  refine ⟨_, if_pos aligned, toWord_lt _ ?_, ?_⟩
  · rw [size_eq, alignment_eq, whole]
    exact fits
  · rw [ofWord_toWord]
    exact ⟨whole, rfl, rfl, rfl, rfl⟩

/-! ## Masks

The same changes as masks on words of 64 bits.
-/

section Masks

variable {mask : UInt64} {index : Nat}

theorem testBit_or_mask (single : mask.toNat = 2 ^ index) (word : UInt64) (other : Nat) :
    (word ||| mask).toNat.testBit other =
      if other = index then true else word.toNat.testBit other := by
  rw [UInt64.toNat_or, Nat.testBit_or, single, Nat.testBit_two_pow]
  by_cases here : other = index
  · simp [here]
  · simp [here, Ne.symm here]

theorem testBit_and_not (word mask : UInt64) (other : Nat) :
    (word &&& ~~~mask).toNat.testBit other =
      (word.toNat.testBit other && !mask.toNat.testBit other) := by
  have flipped : (~~~mask).toNat = 2 ^ 64 - (mask.toNat + 1) := by
    have whole : UInt64.size = 2 ^ 64 := rfl
    rw [UInt64.toNat_not]
    omega
  rw [UInt64.toNat_and, Nat.testBit_and, flipped, Nat.testBit_two_pow_sub_succ mask.toNat_lt]
  by_cases inside : other < 64
  · simp [inside]
  · have above : word.toNat.testBit other = false :=
      Nat.testBit_lt_two_pow (Nat.lt_of_lt_of_le word.toNat_lt (Nat.pow_le_pow_right (by decide)
        (Nat.le_of_not_lt inside)))
    simp [above]

/-- A bit is replaced by joining its mask to the word or by cutting it out. -/
theorem eq_masked_of_replaces {word : UInt64} {changed : Nat} {flag : Bool}
    (replaces : Replaces index flag word.toNat changed) (single : mask.toNat = 2 ^ index) :
    changed = (if flag then word ||| mask else word &&& ~~~mask).toNat := by
  refine Nat.eq_of_testBit_eq fun other => ?_
  rw [replaces.bits]
  cases flag with
  | true => rw [if_pos rfl, testBit_or_mask single]
  | false =>
    rw [if_neg Bool.false_ne_true, testBit_and_not, single, Nat.testBit_two_pow]
    by_cases here : other = index
    · simp [here]
    · simp [here, Ne.symm here]

theorem rewrite_withPrevAllocated (word : UInt64) (flag : Bool) :
    rewrite (·.withPrevAllocated flag) word.toNat =
      (if flag then word ||| 2 else word &&& ~~~2).toNat :=
  have replaces : Replaces 1 flag word.toNat (rewrite (·.withPrevAllocated flag) word.toNat) :=
    replaces_rewrite (fun _ => rfl) (fun header => testBit_withPrevAllocated header flag)
      word.toNat_lt
  eq_masked_of_replaces replaces rfl

theorem rewrite_withPrevMinimal (word : UInt64) (flag : Bool) :
    rewrite (·.withPrevMinimal flag) word.toNat =
      (if flag then word ||| 4 else word &&& ~~~4).toNat :=
  have replaces : Replaces 2 flag word.toNat (rewrite (·.withPrevMinimal flag) word.toNat) :=
    replaces_rewrite (fun _ => rfl) (fun header => testBit_withPrevMinimal header flag)
      word.toNat_lt
  eq_masked_of_replaces replaces rfl

theorem testBit_maskIf (index : Nat) (single : mask.toNat = 2 ^ index) (flag : Bool) (other : Nat) :
    (if flag then mask else 0).toNat.testBit other = (decide (other = index) && flag) := by
  cases flag with
  | false => simp
  | true =>
    rw [if_pos rfl, single, Nat.testBit_two_pow]
    simp [eq_comm]

/-- A packed word is the size without its four lowest bits, with the masks of the flags. -/
theorem toWord_pack {size : UInt64} {allocated prevAllocated prevMinimal : Bool} {header : Header}
    (packs : pack size.toNat allocated prevAllocated prevMinimal = .ok header) :
    header.toWord = ((size &&& ~~~0xF) ||| (if allocated then 1 else 0)
      ||| (if prevAllocated then 2 else 0) ||| (if prevMinimal then 4 else 0)).toNat := by
  unfold pack at packs
  split at packs
  case isFalse => cases packs
  cases packs
  refine Nat.eq_of_testBit_eq fun other => ?_
  have low : (0xF : UInt64).toNat = 2 ^ 4 - 1 := rfl
  simp only [UInt64.toNat_or, Nat.testBit_or, testBit_and_not, low, Nat.testBit_two_pow_sub_one,
    testBit_toWord]
  rw [testBit_maskIf 0 rfl, testBit_maskIf 1 rfl, testBit_maskIf 2 rfl]
  match other with
  | 0 | 1 | 2 | 3 => simp
  | other + 4 =>
    have units : size.toNat / 16 = size.toNat / 2 ^ 4 := rfl
    simp [units, Nat.testBit_div_two_pow]

end Masks

/-- Block sizes and flags are packed into words that they can be read off again, and every word with
the reserved bit clear is packed from what is read off it. In every word, replacing a flag about the
block before replaces one bit, so all else that is read off the word stays, the reserved bit too.
The two flags can be replaced in either order. -/
theorem words_faithful :
    (∀ size (allocated prevAllocated prevMinimal : Bool), size % 16 = 0 → size < wordLimit →
        ∃ header, pack size allocated prevAllocated prevMinimal = .ok header
          ∧ header.toWord < wordLimit
          ∧ (ofWord header.toWord).Says size allocated prevAllocated prevMinimal false)
      ∧ (∀ word, word < wordLimit → word.testBit 3 = false →
        ∃ header, pack (ofWord word).size (ofWord word).allocated (ofWord word).prevAllocated
            (ofWord word).prevMinimal = .ok header
          ∧ header.toWord = word)
      ∧ ∀ word, word < wordLimit → ∀ before minimal : Bool,
        Replaces 1 before word (rewrite (·.withPrevAllocated before) word)
          ∧ (ofWord (rewrite (·.withPrevAllocated before) word)).Says (ofWord word).size
            (ofWord word).allocated before (ofWord word).prevMinimal (ofWord word).reserved
          ∧ Replaces 2 minimal word (rewrite (·.withPrevMinimal minimal) word)
          ∧ (ofWord (rewrite (·.withPrevMinimal minimal) word)).Says (ofWord word).size
            (ofWord word).allocated (ofWord word).prevAllocated minimal (ofWord word).reserved
          ∧ rewrite (·.withPrevMinimal minimal) (rewrite (·.withPrevAllocated before) word)
            = rewrite (·.withPrevAllocated before) (rewrite (·.withPrevMinimal minimal) word) := by
  refine ⟨fun size allocated prevAllocated prevMinimal aligned fits => ?_,
    fun word _ clear => ?_, fun word fits before minimal => ?_⟩
  · exact pack_spec aligned fits allocated prevAllocated prevMinimal
  · -- The bit that no field owns is the only one that packing does not take over.
    exact ⟨ofWord word, pack_of_clean (ofWord word) clear, toWord_ofWord word⟩
  · have first : Replaces 1 before word (rewrite (·.withPrevAllocated before) word) :=
      replaces_rewrite (fun _ => rfl) (fun header => testBit_withPrevAllocated header before) fits
    have second : Replaces 2 minimal word (rewrite (·.withPrevMinimal minimal) word) :=
      replaces_rewrite (fun _ => rfl) (fun header => testBit_withPrevMinimal header minimal) fits
    simp only [ofWord_rewrite, rewrite_rewrite]
    exact ⟨first, ⟨rfl, rfl, rfl, rfl, rfl⟩, second, ⟨rfl, rfl, rfl, rfl, rfl⟩, rfl⟩

/-- The largest block size with all flags, and the largest words without and with the reserved bit.
-/
theorem words_faithful_at_top :
    (∃ header, pack (wordLimit - 16) true true true = .ok header
        ∧ (ofWord header.toWord).Says (wordLimit - 16) true true true false)
      ∧ (∃ header, pack (ofWord (wordLimit - 9)).size true true true = .ok header
        ∧ header.toWord = wordLimit - 9)
      ∧ Replaces 1 false (wordLimit - 1) (rewrite (·.withPrevAllocated false) (wordLimit - 1)) := by
  obtain ⟨packs, reads, rewrites⟩ := words_faithful
  obtain ⟨largest, packed, -, reading⟩ :=
    packs (wordLimit - 16) true true true (by decide) (by decide)
  have clear := reads (wordLimit - 9) (by decide) (by decide)
  exact ⟨⟨largest, packed, reading⟩, clear, (rewrites (wordLimit - 1) (by decide) false true).1⟩

end BoundaryTag.Header
