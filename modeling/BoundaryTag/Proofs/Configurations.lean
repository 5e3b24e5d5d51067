import BoundaryTag.Proofs.Reset

/-!
# Accepted configurations

A configuration is accepted if the capacity that it asks for has room for the first chunk and the
two sentinels. That room is computed up to the largest word only. So there is one chunk size, the
greatest that is a word and a block size, for which the largest word passes as a capacity although
it is too small. A heap cannot be built with it either: rounding up the chunk size overflows. With
every other accepted configuration a heap is built in an arena of the capacity that it asks for,
unless that arena is a buffer that cannot become so large.

The capacity of a mapping is rounded up to whole pages, which overflows for the capacities that are
less than a page away from the largest word, whatever the first chunk is.
-/
namespace BoundaryTag

variable {config : Config} {arena : Arena}

/-! ## The room for the first chunk -/

namespace Config

/-- The numbers of a configuration are machine words. -/
structure InRange (config : Config) : Prop where
  chunkSize : config.chunkSize < wordLimit
  maxHeap : config.maxHeap < wordLimit

/-- The first chunk and the sentinels take more than the largest word. -/
def Saturates (config : Config) : Prop :=
  wordLimit ≤ config.chunkSize + 2 * wordSize

instance (config : Config) : Decidable config.Saturates :=
  inferInstanceAs (Decidable (wordLimit ≤ config.chunkSize + 2 * wordSize))

theorem room_of_valid (valid : config.validate = .ok ()) :
    min (config.chunkSize + 16) (wordLimit - 1) ≤ config.maxHeap := by
  have accepted := valid
  unfold validate at accepted
  split at accepted
  · exact nomatch accepted
  · split at accepted
    next => exact nomatch accepted
    next enough => exact Nat.le_of_not_lt enough

/-- An accepted configuration has the room that it needs unless that is more than a word. -/
theorem fits_iff (valid : config.validate = .ok ()) (inRange : config.InRange) :
    config.chunkSize + 16 ≤ config.maxHeap ↔ ¬config.Saturates := by
  have room := room_of_valid valid
  have below := inRange.maxHeap
  rw [Saturates, wordSize_eq]
  omega

/-- Only one chunk size and one capacity saturate. -/
theorem saturates_iff (valid : config.validate = .ok ()) (inRange : config.InRange) :
    config.Saturates ↔ config.chunkSize = wordLimit - 16 ∧ config.maxHeap = wordLimit - 1 := by
  have room := room_of_valid valid
  have chunk := inRange.chunkSize
  have heap := inRange.maxHeap
  obtain ⟨multiple, -⟩ := chunkSize_of_valid valid
  have limit : wordLimit % 16 = 0 := by decide
  have positive : 0 < wordLimit := by decide
  rw [Saturates, wordSize_eq]
  omega

end Config

/-! ## Arenas -/

theorem Arena.mapping_of_le (map : Mapper) {capacity : Nat}
    (above : wordLimit ≤ capacity + pageSize) : mapping map capacity = .error .overflow := by
  have beyond : wordLimit ≤ max capacity 1 + pageSize :=
    Nat.le_trans above (Nat.add_le_add_right (Nat.le_max_left _ _) _)
  exact mapping_of_fault (alignTo_of_le _ _ beyond)

/-- With a page of room below the limit of a word there is an answer, whatever the system answers:
an arena that is as large as asked for, or an error. -/
theorem Arena.mapping_of_lt (map : Mapper) {capacity : Nat}
    (below : capacity + pageSize < wordLimit) :
    ∃ answer, mapping map capacity = .ok answer
      ∧ ∀ arena, answer = .ok arena → capacity ≤ arena.capacity := by
  have page : pageSize = 2 ^ 12 := rfl
  have room : max capacity 1 + 2 ^ 12 < wordLimit := by
    have one : 1 + 2 ^ 12 < wordLimit := by decide
    omega
  have rounds := alignTo_of_lt _ 12 room
  refine ⟨_, mapping_of_rounded rounds, fun arena made => ?_⟩
  obtain ⟨-, rounded, -⟩ := ofMapped_spec made
  omega

/-- Rounding up to whole pages needs a page of room below the limit of a word. -/
theorem Arena.mapping_overflow_iff (map : Mapper) (capacity : Nat) :
    mapping map capacity = .error .overflow ↔ wordLimit ≤ capacity + pageSize := by
  constructor
  · intro overflows
    by_contra below
    obtain ⟨answer, answers, -⟩ := mapping_of_lt map (Nat.lt_of_not_le below)
    exact nomatch overflows.symm.trans answers
  · exact mapping_of_le map

/-- The arenas that are made for a configuration have the capacity that it asks for. -/
inductive Arena.MadeFor (config : Config) : Arena → Prop
  | buffer : MadeFor config (.buffer config.maxHeap)
  | mapping {map : Mapper} {arena : Arena} :
    Arena.mapping map config.maxHeap = .ok (.ok arena) → MadeFor config arena

theorem Arena.MadeFor.large (made : arena.MadeFor config) (inRange : config.InRange) :
    config.maxHeap ≤ arena.capacity := by
  have below := inRange.maxHeap
  cases made with
  | buffer =>
    have cut : (Arena.buffer config.maxHeap).capacity = min config.maxHeap (wordLimit - 1) := rfl
    omega
  | @mapping map _ maps =>
    have room : config.maxHeap + pageSize < wordLimit := by
      by_contra above
      exact nomatch maps.symm.trans (mapping_of_le map (Nat.le_of_not_lt above))
    obtain ⟨answer, answers, large⟩ := mapping_of_lt map room
    rw [maps, Except.ok.injEq] at answers
    exact large arena answers.symm

/-! ## Building -/

namespace Heap

theorem new_of_reset_error {fault : Fault} {after : Heap} (valid : config.validate = .ok ())
    (fails : reset (unbuilt arena config) = .error fault after) :
    new arena config = .error fault := by
  have accepted : (unbuilt arena config).config.validate = .ok () := valid
  rw [new, EStateM.run, build_eq, accepted]
  simp only [fails]

/-- Where there is room for the sentinels, what faults is the growth by the first chunk. -/
theorem new_of_extend_error {fault : Fault} (valid : config.validate = .ok ())
    (room : 16 ≤ arena.capacity)
    (fails : ∀ bare : Heap, bare.arena.hi = 16 → bare.arena.capacity = arena.capacity →
      bare.arena.backing = arena.backing →
        ∃ after, extend config.chunkSize bare = .error fault after) :
    new arena config = .error fault := by
  have empty : 16 ≤ (unbuilt arena config).arena.capacity := room
  obtain ⟨bare, run, -, top, -, capacity, backing⟩ := reset_eq_addChunk empty
  obtain ⟨after, faults⟩ := fails bare top capacity backing
  have stops : addChunk config.chunkSize bare = .error fault after := bind_of_error faults
  exact new_of_reset_error valid (run.trans stops)

theorem new_of_saturated (valid : config.validate = .ok ()) (saturates : config.Saturates)
    (room : 16 ≤ arena.capacity) : new arena config = .error .overflow :=
  new_of_extend_error valid room fun bare _ _ _ => ⟨bare, extend_of_overflow saturates⟩

theorem new_of_oversized (valid : config.validate = .ok ()) (unsaturated : ¬config.Saturates)
    (fits : config.chunkSize + 16 ≤ arena.capacity)
    (large : arena.backing = .buffer ∧ Arena.bufferLimit < 16 + config.chunkSize) :
    new arena config = .error .oversizedBuffer := by
  obtain ⟨multiple, -⟩ := Config.chunkSize_of_valid valid
  apply new_of_extend_error valid (by omega)
  intro bare top capacity backing
  refine ⟨bare, extend_of_oversized multiple (Nat.lt_of_not_le unsaturated) (by omega) ?_⟩
  rw [backing, top]
  exact large

theorem new_of_fits (valid : config.validate = .ok ())
    (fits : config.chunkSize + 16 ≤ arena.capacity)
    (small : arena.backing = .buffer → config.chunkSize + 16 ≤ Arena.bufferLimit) :
    ∃ heap, new arena config = .ok (.ok heap) := by
  obtain ⟨multiple, real⟩ := Config.chunkSize_of_valid valid
  have roomy : (unbuilt arena config).Roomy := by
    refine ⟨multiple, real, ?_, ?_⟩
    · rw [Nat.add_comm]
      exact fits
    · rintro ⟨buffer, beyond⟩
      rw [Nat.add_comm] at beyond
      exact absurd (small buffer) (Nat.not_le.mpr beyond)
  obtain ⟨heap, built, -⟩ := new_of_roomy valid roomy
  exact ⟨heap, built⟩

/-- Building overflows only if the room for the first chunk saturates. -/
theorem new_overflow_iff (valid : config.validate = .ok ()) (room : 16 ≤ arena.capacity)
    (fits : ¬config.Saturates → config.chunkSize + 16 ≤ arena.capacity) :
    new arena config = .error .overflow ↔ config.Saturates := by
  constructor
  · intro overflows
    by_contra unsaturated
    have fits := fits unsaturated
    -- The only other fault is that of a buffer that cannot become so large.
    by_cases large : arena.backing = .buffer ∧ Arena.bufferLimit < 16 + config.chunkSize
    · exact nomatch overflows.symm.trans (new_of_oversized valid unsaturated fits large)
    · obtain ⟨heap, built⟩ := new_of_fits valid fits fun buffer => by
        have small := not_and.mp large buffer
        omega
      exact nomatch overflows.symm.trans built
  · exact fun saturates => new_of_saturated valid saturates room

end Heap

/-- An accepted configuration asks for the room that it needs, and a heap is built with it in an
arena of the capacity that it asks for as far as a buffer can be so large, both unless it is the one
that saturates. Building overflows with that one only. Whatever the system answers when it is asked
for mappings, making one overflows only if there is no room for a page between its capacity and the
limit of a word; otherwise there is an answer. -/
theorem accepted_configuration_builds (config : Config) (valid : config.validate = .ok ())
    (inRange : config.InRange) :
    (config.chunkSize + 16 ≤ config.maxHeap ↔ ¬config.Saturates)
      ∧ (config.Saturates ↔ config.chunkSize = wordLimit - 16 ∧ config.maxHeap = wordLimit - 1)
      ∧ (∀ arena : Arena, arena.MadeFor config →
        (Heap.new arena config = .error .overflow ↔ config.Saturates)
          ∧ (¬config.Saturates →
            (arena.backing = .buffer → config.chunkSize + 16 ≤ Arena.bufferLimit) →
              ∃ heap, Heap.new arena config = .ok (.ok heap)))
      ∧ ∀ map : Mapper,
        (Arena.mapping map config.maxHeap = .error .overflow
          ↔ wordLimit ≤ config.maxHeap + Arena.pageSize)
        ∧ (config.maxHeap + Arena.pageSize < wordLimit →
          ∃ answer, Arena.mapping map config.maxHeap = .ok answer) := by
  have fits := Config.fits_iff valid inRange
  have saturated := Config.saturates_iff valid inRange
  refine ⟨fits, saturated, ?_, fun map => ⟨Arena.mapping_overflow_iff map _, ?_⟩⟩
  · intro arena made
    have large := made.large inRange
    have enough (unsaturated : ¬config.Saturates) : config.chunkSize + 16 ≤ arena.capacity :=
      Nat.le_trans (fits.mpr unsaturated) large
    have room : 16 ≤ arena.capacity := by
      have limit : 17 ≤ wordLimit := by decide
      by_cases saturates : config.Saturates
      · have most := (saturated.mp saturates).2
        omega
      · have more := enough saturates
        omega
    refine ⟨Heap.new_overflow_iff valid room enough, ?_⟩
    exact fun unsaturated => Heap.new_of_fits valid (enough unsaturated)
  · intro below
    obtain ⟨answer, answers, -⟩ := Arena.mapping_of_lt map below
    exact ⟨answer, answers⟩

/-- With the smallest chunk a heap is built in an arena that has room for nothing else. In a mapping
of the greatest capacity that can be rounded up to whole pages there is room for a chunk of almost
that size. -/
theorem accepted_configuration_builds_at_ends :
    (Config.validate { chunkSize := 16, maxHeap := 32 } = .ok ()
      ∧ Config.InRange { chunkSize := 16, maxHeap := 32 }
      ∧ ∃ heap, Heap.new (.buffer 32) { chunkSize := 16, maxHeap := 32 } = .ok (.ok heap))
    ∧ Config.validate { chunkSize := wordLimit - 4128, maxHeap := wordLimit - 4097 } = .ok ()
      ∧ Config.InRange { chunkSize := wordLimit - 4128, maxHeap := wordLimit - 4097 }
      ∧ ∃ arena heap, Arena.mapping (.below wordLimit 4096 "no room") (wordLimit - 4097) =
          .ok (.ok arena)
        ∧ Heap.new arena { chunkSize := wordLimit - 4128, maxHeap := wordLimit - 4097 } =
          .ok (.ok heap) := by
  have least : Config.validate { chunkSize := 16, maxHeap := 32 } = .ok () := by decide
  have small : Config.InRange { chunkSize := 16, maxHeap := 32 } := ⟨by decide, by decide⟩
  have most : Config.validate { chunkSize := wordLimit - 4128, maxHeap := wordLimit - 4097 }
      = .ok () := by decide
  have large : Config.InRange { chunkSize := wordLimit - 4128, maxHeap := wordLimit - 4097 } :=
    ⟨by decide, by decide⟩
  obtain ⟨-, -, first, -⟩ := accepted_configuration_builds _ least small
  obtain ⟨-, -, last, -⟩ := accepted_configuration_builds _ most large
  have built := (first _ .buffer).2 (by decide) fun _ => by decide
  have maps : Arena.mapping (.below wordLimit 4096 "no room") (wordLimit - 4097) =
      .ok (.ok _) := rfl
  obtain ⟨heap, builds⟩ := (last _ (.mapping maps)).2 (by decide) nofun
  exact ⟨⟨least, small, built⟩, most, large, _, heap, maps, builds⟩

/-- The configuration that saturates is accepted although its first chunk does not fit, and building
a heap with it overflows. So does making a mapping of the largest word for a chunk of usual size. -/
theorem exists_accepted_that_overflows :
    Config.validate { chunkSize := wordLimit - 16, maxHeap := wordLimit - 1 } = .ok ()
    ∧ ¬wordLimit - 16 + 16 ≤ wordLimit - 1
    ∧ Heap.new (.buffer (wordLimit - 1))
      { chunkSize := wordLimit - 16, maxHeap := wordLimit - 1 } = .error .overflow
    ∧ Config.validate { maxHeap := wordLimit - 1 } = .ok ()
    ∧ ∀ map : Mapper, Arena.mapping map (wordLimit - 1) = .error .overflow := by
  have accepted : Config.validate { chunkSize := wordLimit - 16, maxHeap := wordLimit - 1 }
      = .ok () := by decide
  refine ⟨accepted, by decide, ?_, by decide, fun map => Arena.mapping_of_le map (by decide)⟩
  exact Heap.new_of_saturated accepted (by decide) (by decide)

end BoundaryTag
