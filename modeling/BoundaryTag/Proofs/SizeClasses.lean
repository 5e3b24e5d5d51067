import BoundaryTag.FreeLists
import BoundaryTag.Proofs.Encoding

/-!
# The ladder of size classes

A larger size is never in a lower class, and the blocks that have room for a backward link are those
whose class is not the first. The classes read off the ladder and the ranges computed from it agree:
every block size lies in the range of its class and in no other.
-/
namespace BoundaryTag.Bucket

/-- The class is the first rung that the size does not pass, or the last class. -/
theorem val_classify (size : Nat) :
    (classify size).val = upperUnits.findIdx fun upper => size / 16 ≤ upper := by
  have below : upperUnits.findIdx (fun upper => size / 16 ≤ upper) < bucketCount :=
    Nat.lt_succ_of_le List.findIdx_le_length
  exact Nat.mod_eq_of_lt below

theorem classify_mono (small large : Nat) (ordered : small ≤ large) :
    classify small ≤ classify large := by
  rw [Fin.le_def, val_classify, val_classify]
  -- A rung that a size does not pass is not passed by smaller sizes either.
  apply List.findIdx_le_findIdx
  intro upper _ passes
  simp only [decide_eq_true_eq] at passes ⊢
  exact Nat.le_trans (Nat.div_le_div_right ordered) passes

theorem isTwoWay_classify (size : Nat) :
    FreeLists.isTwoWay (classify size) = true ↔ 32 ≤ size := by
  rw [FreeLists.isTwoWay, bne_iff_ne, val_classify]
  by_cases minimal : size / 16 ≤ 1
  · have first : size < 32 := by omega
    simp [upperUnits, List.findIdx_cons, minimal, first]
  · have large : 32 ≤ size := by omega
    simp [upperUnits, List.findIdx_cons, minimal, large]

/-- The ends of a range are in the class, and the sizes next to them are not. -/
theorem ends_spec : ∀ bucket : Bucket, bucket.lower % 16 = 0 ∧ classify bucket.lower = bucket
    ∧ (bucket.lower = 16 ∨ classify (bucket.lower - 16) < bucket)
    ∧ ∀ upper ∈ bucket.upper?, upper % 16 = 0 ∧ classify upper = bucket
      ∧ bucket < classify (upper + 16) := by
  decide

/-- A size from the least one of a bucket on, and up to its largest one if it has one. -/
def InRange (bucket : Bucket) (size : Nat) : Prop :=
  bucket.lower ≤ size ∧ ∀ upper ∈ bucket.upper?, size ≤ upper

/-- A size in the range of a bucket is of that class, whether or not it is a block size. -/
theorem classify_of_inRange {bucket : Bucket} {size : Nat} (inRange : bucket.InRange size) :
    classify size = bucket := by
  obtain ⟨low, high⟩ := inRange
  obtain ⟨-, first, -, above⟩ := ends_spec bucket
  have least : bucket ≤ classify size := first ▸ classify_mono _ _ low
  cases last : bucket.upper? with
  | some upper =>
    have member : upper ∈ bucket.upper? := last
    have most := classify_mono size upper (high upper member)
    rw [(above upper member).2.1] at most
    exact Fin.le_antisymm most least
  | none =>
    -- Only the last range is open, and no class is above the last.
    have top : ∀ other : Bucket, other.upper? = none → other = Fin.last 14 := by decide
    obtain rfl := top bucket last
    exact Fin.le_antisymm (Fin.le_last _) least

/-- A block is in the class whose range its size lies in. -/
theorem classify_eq_iff {size : Nat} (aligned : size % 16 = 0) (real : 16 ≤ size)
    (bucket : Bucket) : classify size = bucket ↔
      bucket.lower ≤ size ∧ ∀ upper ∈ bucket.upper?, size ≤ upper := by
  constructor
  · rintro rfl
    obtain ⟨multiple, -, below, above⟩ := ends_spec (classify size)
    -- A size outside the range is on the other side of a size that is in another class.
    refine ⟨Nat.le_of_not_lt fun small => ?_, fun upper last => Nat.le_of_not_lt fun large => ?_⟩
    · rcases below with least | lower
      · omega
      · exact absurd (classify_mono size _ (by omega)) (Fin.not_le.mpr lower)
    · obtain ⟨whole, -, higher⟩ := above upper last
      exact absurd (classify_mono _ size (by omega)) (Fin.not_le.mpr higher)
  · exact classify_of_inRange

/-- The ranges are disjoint, and every block size lies in one of them, which is the range of its
class. A larger size is never in a lower class, whether or not the two are block sizes. -/
theorem ranges_partition :
    (∀ size, size % 16 = 0 → 16 ≤ size →
        (∀ bucket : Bucket, classify size = bucket ↔ bucket.InRange size)
          ∧ ∃ bucket : Bucket, bucket.InRange size)
      ∧ (∀ (size : Nat) (first second : Bucket),
        first.InRange size → second.InRange size → first = second)
      ∧ ∀ small large, small ≤ large → classify small ≤ classify large := by
  refine ⟨fun size aligned real => ?_, fun size first second left right => ?_, classify_mono⟩
  · have exactly := classify_eq_iff aligned real
    exact ⟨exactly, classify size, (exactly _).mp rfl⟩
  · -- Both are the class of the size.
    exact (classify_of_inRange left).symm.trans (classify_of_inRange right)

/-- The last rung of the ladder is 140 units. The largest block size that is a word lies above. -/
theorem ranges_partition_at_last_rung :
    InRange ⟨13, by decide⟩ 2240 ∧ InRange ⟨14, by decide⟩ 2256
      ∧ InRange ⟨14, by decide⟩ (wordLimit - 16) ∧ ¬InRange ⟨13, by decide⟩ 2256
      ∧ classify 2255 ≤ classify 2256 := by
  obtain ⟨classes, disjoint, monotone⟩ := ranges_partition
  have below := ((classes 2240 (by decide) (by decide)).1 ⟨13, by decide⟩).mp (by decide)
  have above := ((classes 2256 (by decide) (by decide)).1 ⟨14, by decide⟩).mp (by decide)
  have most := ((classes (wordLimit - 16) (by decide) (by decide)).1 ⟨14, by decide⟩).mp (by decide)
  have apart : ¬InRange ⟨13, by decide⟩ 2256 := fun inside =>
    absurd (disjoint 2256 _ _ inside above) (by decide)
  exact ⟨below, above, most, apart, monotone 2255 2256 (by decide)⟩

end BoundaryTag.Bucket
