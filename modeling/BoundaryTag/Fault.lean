import BoundaryTag.Violation

/-!
# Faults

A fault is the end of a computation that broke a rule its caller had to keep: a word outside the
arena, arithmetic beyond a machine word, an operation on a block in the wrong state. Requests that
merely cannot be met are not faults; they are ordinary answers.

Readers are functions into `Except Fault`. Writers are `EStateM Fault`, which keeps the state that
a fault was reached in.
-/
namespace BoundaryTag

/-- A point at which a checking heap runs the validator. -/
inductive Checkpoint where
  | beforeAllocate
  | afterAllocate
  | beforeRelease
  | afterRelease
deriving DecidableEq, Repr

def Checkpoint.label : Checkpoint → String
  | .beforeAllocate => "before allocate"
  | .afterAllocate => "after allocate"
  | .beforeRelease => "before release"
  | .afterRelease => "after release"

/-- Why a computation cannot go on. -/
inductive Fault where
  /-- A sum, a difference or a product left the range of a machine word. -/
  | overflow
  /-- A byte range or a table index lies outside its bounds. -/
  | outOfBounds
  /-- A buffer would grow past the largest size that a buffer can have. -/
  | oversizedBuffer
  /-- A size that is not a multiple of the alignment unit was to become a header. -/
  | unalignedSize
  /-- The block to list is already the head of its bucket. -/
  | insertedTwice
  /-- A block without a predecessor in its bucket is not the head either. -/
  | notListHead
  /-- A block that has to be free, or large enough, is not. -/
  | notFree
  /-- A new heap does not start right behind the first word of its arena. -/
  | misplacedStart
  | stepOverEpilogue
  /-- The block to take out is not on the list of minimal blocks. -/
  | missingFromBucketZero (offset : Nat)
  /-- The block before this one is free but cannot be found. -/
  | missingBoundaryTag (offset : Nat)
  | releaseOfFree (address : Nat)
  | invariantBroken (checkpoint : Checkpoint) (violation : Violation)
  | endlessChain
deriving DecidableEq, Repr

open Text in
/-- The words that accompany a fault; most faults have none. -/
def Fault.message? : Fault → Option String
  | .stepOverEpilogue => some "next() called on the epilogue"
  | .missingFromBucketZero offset => some s!"block {hex offset} not in bucket 0"
  | .missingBoundaryTag offset =>
    some s!"block {hex offset} has a free predecessor but no boundary tag"
  | .releaseOfFree address => some s!"release of free block at {hex address}"
  | .invariantBroken checkpoint violation =>
    some s!"heap invariant broken {checkpoint.label}: {violation.message}"
  | _ => none

def ensure (condition : Bool) (fault : Fault) : Except Fault Unit :=
  if condition then .ok () else .error fault

theorem except_bind_of_ok {Error Result Next : Type} {first : Except Error Result}
    {result : Result} {next : Result → Except Error Next} (answers : first = .ok result) :
    (first >>= next) = next result := by
  rw [answers]
  rfl

/-- A chain of checks that answers has answered at each link. -/
theorem exists_of_except_bind {Error Result Next : Type} {first : Except Error Result}
    {next : Result → Except Error Next} {answer : Next} (answers : (first >>= next) = .ok answer) :
    ∃ result, first = .ok result ∧ next result = .ok answer := by
  cases first with
  | error fault => cases answers
  | ok result => exact ⟨result, rfl, answers⟩

/-- Uses a reader inside a writer: the state stays as it is, whether the reader succeeds or not. -/
def reading {State Result : Type} (read : State → Except Fault Result) :
    EStateM Fault State Result := fun state =>
  match read state with
  | .ok result => .ok result state
  | .error fault => .error fault state

/-- A check that looks at no state can be made inside every writer. -/
instance {State : Type} : MonadLift (Except Fault) (EStateM Fault State) where
  monadLift check := reading fun _ => check

end BoundaryTag
