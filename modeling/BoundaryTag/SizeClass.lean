import BoundaryTag.Header

/-!
# Size classes

Free blocks are sorted into fifteen buckets by size, measured in units of 16 bytes:

```text
  bucket   0   1   2    3    4    5     6     7     8     9     10    11    12    13     14
  units    1   2  3-4  5-6  7-9 10-12 13-15 16-20 21-26 27-36 37-50 51-70 71-99 100-140  141+
```
-/
namespace BoundaryTag

abbrev bucketCount : Nat := 15

abbrev Bucket := Fin bucketCount

namespace Bucket

/-- The largest size of each bucket but the last, in units. -/
def upperUnits : List Nat :=
  [1, 2, 4, 6, 9, 12, 15, 20, 26, 36, 50, 70, 99, 140]

/-- The size class of a block: the first whose upper bound the size does not pass. -/
def classify (size : Nat) : Bucket :=
  let units := size / minBlockSize
  Fin.ofNat bucketCount (upperUnits.findIdx fun upper => units ≤ upper)

def lower (bucket : Bucket) : Nat :=
  match bucket.val with
  | 0 => minBlockSize
  | rank + 1 => (upperUnits.getD rank 0 + 1) * minBlockSize

/-- The largest size of a bucket, if it has one. -/
def upper? (bucket : Bucket) : Option Nat :=
  upperUnits[bucket.val]?.map (· * minBlockSize)

def all : List Bucket :=
  List.finRange bucketCount

/-- The size class of a number, which has to be in range. -/
def ofNat (number : Nat) : Except Fault Bucket :=
  if inside : number < bucketCount then .ok ⟨number, inside⟩ else .error .outOfBounds

end Bucket

end BoundaryTag
