import BoundaryTag.Proofs.ListPass

/-!
# The validator is exact

The two passes together accept an arena and the heads of its lists exactly if some layout describes
them. So the validator neither misses a violation of the invariant nor rejects a heap that keeps it.
-/
namespace BoundaryTag

variable {arena : Arena} {lists : FreeLists}

theorem Validator.check_passes_iff : Passes (check arena lists) () ↔ WellFormed arena lists := by
  rw [check, passes_bind_iff]
  simp only [checkBlocks_passes_iff]
  constructor
  · rintro ⟨blocks, tiling, passes⟩
    obtain ⟨chains, listing⟩ := (checkLists_passes_iff tiling).mp passes
    exact ⟨⟨blocks, chains⟩, tiling, listing⟩
  · rintro ⟨⟨blocks, chains⟩, tiling, listing⟩
    exact ⟨blocks, tiling, (checkLists_passes_iff tiling).mpr ⟨chains, listing⟩⟩

theorem validate_of_wellFormed (wellFormed : WellFormed arena lists) :
    validate arena lists = .ok (.ok ()) :=
  Validator.check_passes_iff.mpr wellFormed

/-- The validator passes a heap exactly if the heap keeps its invariant. -/
theorem validate_passes_iff_wellFormed (arena : Arena) (lists : FreeLists) :
    validate arena lists = .ok (.ok ()) ↔ WellFormed arena lists :=
  Validator.check_passes_iff

namespace Heap

/-- A checking heap that keeps its invariant goes on. -/
theorem verify_of_wellFormed (heap : Heap) (checkpoint : Checkpoint)
    (wellFormed : WellFormed heap.arena heap.lists) : heap.verify checkpoint = .ok () := by
  have passes : heap.validate = .ok (.ok ()) := validate_of_wellFormed wellFormed
  unfold verify
  split
  · rw [except_bind_of_ok passes]
    rfl
  · rfl

end Heap

end BoundaryTag
