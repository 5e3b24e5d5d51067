import BoundaryTag.Fault

/-!
# Machine words

Offsets, sizes and header words are natural numbers below `wordLimit`. Arithmetic on them is
checked: a result outside that range is a fault, never a wrapped value.
-/
namespace BoundaryTag

/-- One more than the largest machine word, which has 64 bits. -/
def wordLimit : Nat := 0x10000000000000000

def wordSize : Nat := 8

/-- Every block size and every payload offset is a multiple of two words. -/
def alignment : Nat := 2 * wordSize

def addWord (left right : Nat) : Except Fault Nat :=
  if left + right < wordLimit then .ok (left + right) else .error .overflow

def subWord (left right : Nat) : Except Fault Nat :=
  if right ≤ left then .ok (left - right) else .error .overflow

/-- Adds one less than `unit` and clears the bits that `unit - 1` has set. For a power of two that
is the least multiple of `unit` from `value` on. -/
def alignTo (value unit : Nat) : Except Fault Nat := do
  let sum ← addWord value unit
  let top ← subWord sum 1
  let mask ← subWord unit 1
  return top - (top &&& mask)

def align (value : Nat) : Except Fault Nat :=
  alignTo value alignment

theorem lt_of_addWord {left right sum : Nat} (adds : addWord left right = .ok sum) :
    sum < wordLimit := by
  unfold addWord at adds
  split at adds
  next below =>
    cases adds
    exact below
  next => cases adds

theorem le_of_subWord {left right rest : Nat} (subtracts : subWord left right = .ok rest) :
    rest ≤ left := by
  unfold subWord at subtracts
  split at subtracts
  · cases subtracts
    exact Nat.sub_le left right
  · cases subtracts

/-- What a value is rounded up to is a word. -/
theorem lt_of_alignTo {value unit rounded : Nat} (rounds : alignTo value unit = .ok rounded) :
    rounded < wordLimit := by
  obtain ⟨sum, adds, rest⟩ := exists_of_except_bind rounds
  obtain ⟨top, subtracts, rest⟩ := exists_of_except_bind rest
  obtain ⟨mask, -, rest⟩ := exists_of_except_bind rest
  cases rest
  have below := lt_of_addWord adds
  have lower := le_of_subWord subtracts
  omega

end BoundaryTag
