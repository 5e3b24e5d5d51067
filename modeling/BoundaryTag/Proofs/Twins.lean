import BoundaryTag.Proofs.Canonical
import BoundaryTag.Proofs.Isolation

/-!
# Twins

Two heaps are twins when one layout describes both: the same blocks, on the same lists in the same
order. Their payloads, the insides of their free blocks and the bytes behind the break may differ,
and so may what their arenas are made of. An operation on twins answers the same on both and leaves
twins, because it reads nothing but what the layout says.
-/
namespace BoundaryTag

open Validator (Entry)

/-! ## Two runs of one action -/

/-- From two states an action ends in the same answer, and the states that it leaves satisfy a
postcondition together, or it ends in the same fault. -/
def Tandem {State Result : Type} (action : EStateM Fault State Result) (left right : State)
    (post : Result → State → State → Prop) : Prop :=
  (∃ result first second, action left = .ok result first ∧ action right = .ok result second
      ∧ post result first second)
    ∨ ∃ fault first second, action left = .error fault first ∧ action right = .error fault second

namespace Tandem

variable {State Result Next : Type} {action other : EStateM Fault State Result}
  {left right first second : State} {post : Result → State → State → Prop}

/-- Two runs that are known each for itself have to agree in their answers. -/
theorem of_returns {here there : Result → State → Prop} (returns : Returns action left here)
    (also : Returns action right there)
    (agree : ∀ result first answer second, here result first → there answer second →
      answer = result ∧ post result first second) : Tandem action left right post := by
  obtain ⟨result, first, run, holds⟩ := returns
  obtain ⟨answer, second, rerun, further⟩ := also
  obtain ⟨rfl, holds⟩ := agree result first answer second holds further
  exact .inl ⟨answer, first, second, run, rerun, holds⟩

theorem of_error {fault : Fault} (fails : action left = .error fault first)
    (also : action right = .error fault second) : Tandem action left right post :=
  .inr ⟨fault, first, second, fails, also⟩

theorem pure {result : Result} (holds : post result left right) :
    Tandem (pure result) left right post :=
  .inl ⟨result, left, right, rfl, rfl, holds⟩

theorem bind {next : Result → EStateM Fault State Next} {middle : Result → State → State → Prop}
    {final : Next → State → State → Prop} (tandem : Tandem action left right middle)
    (rest : ∀ result first second, middle result first second →
      Tandem (next result) first second final) : Tandem (action >>= next) left right final := by
  rcases tandem with ⟨result, first, second, run, rerun, holds⟩ | ⟨fault, first, second, run, rerun⟩
  · have tail := rest result first second holds
    unfold Tandem
    rw [bind_of_ok run, bind_of_ok rerun]
    exact tail
  · exact of_error (bind_of_error run) (bind_of_error rerun)

theorem step {next : Result → EStateM Fault State Next} {result : Result}
    {final : Next → State → State → Prop} (run : action left = .ok result first)
    (rerun : action right = .ok result second) (rest : Tandem (next result) first second final) :
    Tandem (action >>= next) left right final := by
  unfold Tandem
  rw [bind_of_ok run, bind_of_ok rerun]
  exact rest

theorem congr (tandem : Tandem other left right post) (here : action left = other left)
    (there : action right = other right) : Tandem action left right post := by
  unfold Tandem
  rw [here, there]
  exact tandem

theorem mono {weaker : Result → State → State → Prop} (tandem : Tandem action left right post)
    (weaken : ∀ result first second, post result first second → weaker result first second) :
    Tandem action left right weaker := by
  rcases tandem with ⟨result, first, second, run, rerun, holds⟩ | fails
  · exact .inl ⟨result, first, second, run, rerun, weaken result first second holds⟩
  · exact .inr fails

end Tandem

namespace Heap

/-! ## Heaps with one layout -/

/-- The heap is tuned and made as before. -/
structure Kept (before after : Heap) : Prop where
  config : after.config = before.config
  capacity : after.arena.capacity = before.arena.capacity
  backing : after.arena.backing = before.arena.backing

/-- Two heaps with the same tuning and the same room, cut and listed alike. Their arenas may be made
of different things, unless there is room for more than a buffer can hold. -/
structure Twins (layout : Layout) (left right : Heap) : Prop where
  config : right.config = left.config
  capacity : right.arena.capacity = left.arena.capacity
  hi : right.arena.hi = left.arena.hi
  backing : right.arena.backing = left.arena.backing ∨ left.arena.capacity ≤ Arena.bufferLimit
  roomy : left.Roomy
  otherRoomy : right.Roomy
  describes : layout.Describes left.arena left.lists
  otherDescribes : layout.Describes right.arena right.lists

namespace Twins

variable {layout others final : Layout} {left right first second : Heap}

theorem symm (twins : Twins layout left right) : Twins layout right left := by
  obtain ⟨config, capacity, hi, backing, roomy, otherRoomy, describes, otherDescribes⟩ := twins
  refine ⟨config.symm, capacity.symm, hi.symm, ?_, otherRoomy, roomy, otherDescribes, describes⟩
  rw [capacity]
  exact backing.imp_left Eq.symm

/-- Two heaps that are tuned alike and have the same chains are twins if they hold the same blocks:
blocks that are not held are determined by those that are. -/
theorem of_held (config : right.config = left.config)
    (capacity : right.arena.capacity = left.arena.capacity)
    (hi : right.arena.hi = left.arena.hi)
    (backing : right.arena.backing = left.arena.backing ∨ left.arena.capacity ≤ Arena.bufferLimit)
    (roomy : left.Roomy) (otherRoomy : right.Roomy)
    (describes : layout.Describes left.arena left.lists)
    (described : others.Describes right.arena right.lists)
    (held : ∀ offset size, Held layout.blocks offset size ↔ Held others.blocks offset size)
    (chains : layout.chains = others.chains) : Twins layout left right := by
  have blocks := describes.blocks_unique described hi held
  obtain rfl : layout = others := by
    cases layout
    cases others
    simp_all
  exact ⟨config, capacity, hi, backing, roomy, otherRoomy, describes, described⟩

/-- After an operation the two heaps are twins again if they still hold the same blocks and have the
same chains. -/
theorem advance (twins : Twins layout left right) (kept : Kept left first)
    (otherKept : Kept right second) (describes : others.Describes first.arena first.lists)
    (described : final.Describes second.arena second.lists)
    (top : second.arena.hi = first.arena.hi)
    (held : ∀ offset size, Held others.blocks offset size ↔ Held final.blocks offset size)
    (chains : others.chains = final.chains) : Twins others first second := by
  refine of_held ?_ ?_ top ?_ ?_ ?_ describes described held chains
  · rw [kept.config, otherKept.config, twins.config]
  · rw [kept.capacity, otherKept.capacity, twins.capacity]
  · rw [kept.backing, otherKept.backing, kept.capacity]
    exact twins.backing
  · exact twins.roomy.congr kept.config kept.capacity kept.backing
  · exact twins.otherRoomy.congr otherKept.config otherKept.capacity otherKept.backing

theorem unchanged (twins : Twins layout left right) (same : Unchanged left first)
    (otherSame : Unchanged right second) : Twins layout first second := by
  obtain ⟨config, arena, lists⟩ := same
  obtain ⟨otherConfig, otherArena, otherLists⟩ := otherSame
  refine twins.advance ⟨config, by rw [arena], by rw [arena]⟩
    ⟨otherConfig, by rw [otherArena], by rw [otherArena]⟩ ?_ ?_ ?_ (fun _ _ => Iff.rfl) rfl
  · rw [arena, lists]
    exact twins.describes
  · rw [otherArena, otherLists]
    exact twins.otherDescribes
  · rw [arena, otherArena, twins.hi]

/-- What is written into a payload of the one heap is nothing that twins have in common. -/
theorem write {offset size : Nat} (twins : Twins layout left right)
    (held : Held layout.blocks offset size) (writes : Writes offset size left first) :
    Twins layout first right := by
  have confined := writes.confined
  refine twins.advance ⟨writes.config, confined.capacity, confined.backing⟩ ⟨rfl, rfl, rfl⟩
    (writes.describes twins.describes held) twins.otherDescribes ?_ (fun _ _ => Iff.rfl) rfl
  rw [confined.hi, twins.hi]

theorem write_both {offset size : Nat} (twins : Twins layout left right)
    (held : Held layout.blocks offset size) (writes : Writes offset size left first)
    (rewrites : Writes offset size right second) : Twins layout first second :=
  ((twins.write held writes).symm.write held rewrites).symm

end Twins

variable {layout : Layout} {left right : Heap}

/-! ## The search and growth -/

theorem findFit_eq (twins : Twins layout left right) (wanted : Nat) :
    findFit wanted right = findFit wanted left := by
  unfold findFit
  rw [twins.config]
  apply FreeLists.findFit_congr (FreeLists.chained_of_listed twins.describes.listed)
    (FreeLists.chained_of_listed twins.otherDescribes.listed)
  intro bucket offset member
  obtain ⟨entry, there, -, rfl, -⟩ := (twins.describes.listing.members bucket offset).mp member
  rw [twins.describes.tiling.sizeAt there, twins.otherDescribes.tiling.sizeAt there]

/-- Two heaps that hold at least the blocks that a layout holds, and a block that may be cut. -/
def Finds (layout : Layout) (wanted : Nat) (result : Except AllocError Block)
    (first second : Heap) : Prop :=
  ∃ others, Twins others first second
    ∧ (∀ offset size, Held others.blocks offset size ↔ Held layout.blocks offset size)
    ∧ ∀ block, result = .ok block →
      ∃ entry ∈ others.blocks, entry.IsFree ∧ wanted ≤ entry.size ∧ block = ⟨entry.offset⟩

/-- A buffer becomes too large only if both arenas are buffers. -/
theorem Twins.oversized_iff {growth : Nat} (twins : Twins layout left right)
    (room : left.arena.hi + growth ≤ left.arena.capacity) :
    (right.arena.backing = .buffer ∧ Arena.bufferLimit < right.arena.hi + growth) ↔
      (left.arena.backing = .buffer ∧ Arena.bufferLimit < left.arena.hi + growth) := by
  rw [twins.hi]
  rcases twins.backing with same | small
  · rw [same]
  · have below : ¬Arena.bufferLimit < left.arena.hi + growth := by omega
    simp [below]

theorem extend_tandem {growth : Nat} (twins : Twins layout left right) (multiple : growth % 16 = 0)
    (real : 16 ≤ growth) :
    Tandem (extend growth) left right (Finds layout growth) := by
  -- Whether the growth fits a machine word, the arena and a buffer is the same on both sides, and
  -- so is what happens then.
  by_cases below : growth + 16 < wordLimit
  case neg =>
    have above := Nat.not_lt.mp below
    exact .of_error (extend_of_overflow above) (extend_of_overflow above)
  have rooms : right.arena.hi + growth ≤ right.arena.capacity ↔
      left.arena.hi + growth ≤ left.arena.capacity := by rw [twins.hi, twins.capacity]
  by_cases room : left.arena.hi + growth ≤ left.arena.capacity
  case neg =>
    refine .of_returns (extend_of_exhausted multiple below room)
      (extend_of_exhausted multiple below (mt rooms.mp room)) ?_
    rintro _ first _ second ⟨rfl, same⟩ ⟨rfl, also⟩
    refine ⟨by rw [twins.hi, twins.capacity], layout, twins.unchanged same also, ?_, nofun⟩
    exact fun _ _ => Iff.rfl
  by_cases large : left.arena.backing = .buffer ∧ Arena.bufferLimit < left.arena.hi + growth
  case pos =>
    exact .of_error (extend_of_oversized multiple below room large)
      (extend_of_oversized multiple below (rooms.mpr room) ((twins.oversized_iff room).mpr large))
  refine .of_returns (extend_returns twins.describes multiple real below room large)
    (extend_returns twins.otherDescribes multiple real below (rooms.mpr room)
      (mt (twins.oversized_iff room).mp large)) ?_
  rintro _ first _ second
    ⟨others, joined, described, held, chains, member, free, wide, place, -, rfl, higher, kept⟩
    ⟨final, block, whole, also, listed, -, -, -, start, -, rfl, top, otherKept⟩
  rw [twins.hi] at listed start
  refine ⟨by rw [place, start], others, ?_, held, ?_⟩
  · refine twins.advance ⟨kept.config, kept.capacity, kept.backing⟩
      ⟨otherKept.config, otherKept.capacity, otherKept.backing⟩ described whole ?_ ?_ ?_
    · rw [top, higher, twins.hi]
    · exact fun offset size => (held offset size).trans (also offset size).symm
    · rw [chains, listed]
  · rintro _ ⟨⟩
    exact ⟨joined, member, free, wide, rfl⟩

/-- A search that has grown the arena or not ends in the same block. -/
theorem findBlock_tandem {wanted : Nat} (twins : Twins layout left right)
    (multiple : wanted % 16 = 0) (real : 16 ≤ wanted) :
    Tandem (findBlock wanted) left right (Finds layout wanted) := by
  unfold findBlock
  rcases findFit_of_describes twins.describes wanted with
    ⟨found, -⟩ | ⟨entry, member, free, large, found⟩
  · have again : findFit wanted right = .ok none := (findFit_eq twins wanted).trans found
    have chunk : reading (fun heap : Heap => pure heap.config.chunkSize) right =
        .ok left.config.chunkSize right := by
      rw [← twins.config]
      rfl
    have aligned := twins.roomy.multiple
    refine .step (reading_of_ok found) (reading_of_ok again) (.step rfl chunk ?_)
    refine (extend_tandem twins (by omega) (by omega)).bind ?_
    rintro (error | extended) first second ⟨others, grown, held, block⟩
    · exact .pure ⟨others, grown, held, nofun⟩
    · obtain ⟨joined, there, isFree, wide, rfl⟩ := block extended rfl
      -- The new block is listed and large enough, but the search may prefer another one.
      have retry := findFit_eq grown wanted
      rcases findFit_of_describes grown.describes wanted with
        ⟨found, -⟩ | ⟨entry, member, free, large, found⟩
      · refine .step (reading_of_ok found) (reading_of_ok (retry.trans found)) (.pure ?_)
        refine ⟨others, grown, held, ?_⟩
        rintro _ ⟨⟩
        exact ⟨joined, there, isFree, by omega, rfl⟩
      · refine .step (reading_of_ok found) (reading_of_ok (retry.trans found)) (.pure ?_)
        refine ⟨others, grown, held, ?_⟩
        rintro _ ⟨⟩
        exact ⟨entry, member, free, large, rfl⟩
  · have again := (findFit_eq twins wanted).trans found
    refine .step (reading_of_ok found) (reading_of_ok again) (.pure ⟨layout, twins, ?_, ?_⟩)
    · exact fun _ _ => Iff.rfl
    · rintro _ ⟨⟩
      exact ⟨entry, member, free, large, rfl⟩

/-! ## Requests -/

/-- Two heaps that hold at least the blocks that a layout holds, and the block that has been asked
for, if the request was met. -/
def Serves (layout : Layout) (size : Nat) (result : Except AllocError Address)
    (first second : Heap) : Prop :=
  ∃ others, Twins others first second
    ∧ (∀ offset width, Held layout.blocks offset width → Held others.blocks offset width)
    ∧ ∀ address, result = .ok address → (size = 0 ∧ address = .null)
      ∨ ∃ start, address = ⟨start + 8⟩ ∧ Held others.blocks start (blockSize size)

theorem serve_tandem {size wanted : Nat} {entry : Entry} (twins : Twins layout left right)
    (member : entry ∈ layout.blocks) (free : entry.IsFree) (aligned : wanted % 16 = 0)
    (real : 16 ≤ wanted) (large : wanted ≤ entry.size) :
    Tandem (serve size wanted ⟨entry.offset⟩) left right fun result first second =>
      result = .ok ⟨entry.offset + 8⟩ ∧ ∃ others, Twins others first second
        ∧ ∀ offset width, Held others.blocks offset width ↔
          Held layout.blocks offset width ∨ (offset = entry.offset ∧ width = wanted) := by
  refine .of_returns (serve_returns size twins.describes member free aligned real large)
    (serve_returns size twins.otherDescribes member free aligned real large) ?_
  rintro _ first _ second ⟨rfl, same, ⟨others, described, chains, -, held⟩, kept⟩
    ⟨rfl, also, ⟨final, whole, listed, -, left⟩, otherKept⟩
  refine ⟨rfl, rfl, others, ?_, held⟩
  refine twins.advance ⟨kept.config, kept.capacity, kept.backing⟩
    ⟨otherKept.config, otherKept.capacity, otherKept.backing⟩ described whole ?_ ?_ ?_
  · rw [same, also, twins.hi]
  · exact fun offset width => (held offset width).trans (left offset width).symm
  · rw [chains, listed]

theorem allocate_tandem (twins : Twins layout left right) (size : Nat) :
    Tandem (allocate size) left right (Serves layout size) := by
  have here : WellFormed left.arena left.lists := ⟨layout, twins.describes⟩
  have there : WellFormed right.arena right.lists := ⟨layout, twins.otherDescribes⟩
  -- A request that is answered without a block leaves both heaps as they are.
  have same (result : Except AllocError Address)
      (empty : ∀ address, result = .ok address → size = 0 ∧ address = .null) :
      Serves layout size result left right :=
    ⟨layout, twins, fun _ _ => id, fun address answered => .inl (empty address answered)⟩
  rcases Nat.eq_zero_or_pos size with rfl | positive
  · refine .inl ⟨_, _, _, allocate_zero here, allocate_zero there, same _ ?_⟩
    rintro _ ⟨⟩
    exact ⟨rfl, rfl⟩
  by_cases fits : size ≤ wordLimit - 1 - 24
  case neg =>
    have large := Nat.lt_of_not_le fits
    exact .inl ⟨_, _, _, allocate_of_large here large, allocate_of_large there large, same _ nofun⟩
  refine .congr ?_ (allocate_eq here positive fits) (allocate_eq there positive fits)
  refine (findBlock_tandem twins (blockSize_mod size) (blockSize_real positive)).bind ?_
  rintro (error | block) first second ⟨others, found, held, cut⟩
  · exact .pure ⟨others, found, fun offset width => (held offset width).mpr, nofun⟩
  · obtain ⟨entry, member, free, large, rfl⟩ := cut block rfl
    refine (serve_tandem found member free (blockSize_mod size) (blockSize_real positive)
      large).mono ?_
    rintro _ third fourth ⟨rfl, final, served, holds⟩
    refine ⟨final, served, fun offset width before => ?_, ?_⟩
    · exact (holds offset width).mpr (.inl ((held offset width).mpr before))
    · rintro _ ⟨⟩
      exact .inr ⟨entry.offset, rfl, (holds _ _).mpr (.inr ⟨rfl, rfl⟩)⟩

/-- Both heaps have been left as twins. -/
def AreTwins {Result : Type} (_ : Result) (first second : Heap) : Prop :=
  ∃ layout, Twins layout first second

theorem release_tandem {offset size : Nat} (twins : Twins layout left right)
    (held : Held layout.blocks offset size) :
    Tandem (release ⟨offset + 8⟩) left right AreTwins := by
  obtain ⟨entry, member, allocated, rfl, rfl⟩ := held
  obtain ⟨fore, aft, split⟩ := List.append_of_mem member
  refine .of_returns (release_returns twins.describes split allocated)
    (release_returns twins.otherDescribes split allocated) ?_
  rintro ⟨⟩ first ⟨⟩ second ⟨others, described, held, chains, -, frees, -⟩
    ⟨final, whole, left, listed, -, otherFrees, -⟩
  have confined := frees.confined
  have otherConfined := otherFrees.confined
  refine ⟨rfl, others, twins.advance ⟨frees.config, confined.capacity, confined.backing⟩
    ⟨otherFrees.config, otherConfined.capacity, otherConfined.backing⟩ described whole ?_ ?_ ?_⟩
  · rw [confined.hi, otherConfined.hi, twins.hi]
  · exact fun offset size => (held offset size).trans (left offset size).symm
  · rw [chains, listed]

/-- Bytes that are written into a payload leave twins, whatever they are. -/
theorem onArena_tandem {Result : Type} {action : ArenaM Result} {offset size start stop : Nat}
    {here there : Result → Arena → Prop} (twins : Twins layout left right)
    (held : Held layout.blocks offset size) (low : offset + 8 ≤ start) (high : stop ≤ offset + size)
    (returns : Returns action left.arena fun result after =>
      Arena.Confined (Span start stop) left.arena after ∧ here result after)
    (also : Returns action right.arena fun result after =>
      Arena.Confined (Span start stop) right.arena after ∧ there result after)
    (agree : ∀ result first answer second, here result first → there answer second →
      answer = result) :
    Tandem (onArena action) left right fun _ first second => Twins layout first second := by
  refine .of_returns (onArena_writes offset size low high returns)
    (onArena_writes offset size low high also) ?_
  rintro result first answer second ⟨writes, ends⟩ ⟨rewrites, also⟩
  exact ⟨agree _ _ _ _ ends also, twins.write_both held writes rewrites⟩

theorem record_tandem (twins : Twins layout left right) (event : Event) :
    Tandem (record event) left right fun _ first second => Twins layout first second := by
  refine .of_returns (record_returns event) (record_returns event) ?_
  rintro ⟨⟩ first ⟨⟩ second same also
  exact ⟨rfl, twins.unchanged same also⟩

theorem resize_tandem {offset old size : Nat} (twins : Twins layout left right)
    (held : Held layout.blocks offset old) (positive : 0 < size) :
    Tandem (resize ⟨offset + 8⟩ size) left right AreTwins := by
  have nonzero : ¬size = 0 := by omega
  have read {heap : Heap} (describes : layout.Describes heap.arena heap.lists) :
      reading (fun heap : Heap => heap.usableSize ⟨offset + 8⟩) heap = .ok (old - 8) heap :=
    reading_of_ok (usableSize_of_held describes held)
  unfold resize
  rw [if_neg nonzero, Address.isNull_payload, if_neg Bool.false_ne_true]
  refine .step (read twins.describes) (read twins.otherDescribes) ?_
  refine (allocate_tandem twins size).bind ?_
  rintro (error | moved) first second ⟨others, allocated, kept, block⟩
  · exact .pure ⟨others, allocated⟩
  have before := kept offset old held
  rcases block moved rfl with ⟨none, -⟩ | ⟨start, rfl, new⟩
  · exact absurd none nonzero
  have bounds := blockSize_bounds size
  obtain ⟨-, -, -, real, inside⟩ := allocated.describes.held_bounds before
  obtain ⟨-, -, -, -, room⟩ := allocated.describes.held_bounds new
  have top := allocated.hi
  -- The old payloads may differ, and what is copied out of them with them.
  have copies (heap : Heap) (same : heap.arena.hi = first.arena.hi) :=
    Arena.copyBytes_returns heap.arena (offset + 8) (start + 8) (min (old - 8) size) (by omega)
      (by omega)
  refine (onArena_tandem allocated new (Nat.le_refl _) (by omega) (copies first rfl)
    (copies second top) fun _ _ _ _ _ _ => rfl).bind ?_
  rintro ⟨⟩ third fourth copied
  refine (release_tandem copied before).bind ?_
  rintro ⟨⟩ fifth sixth ⟨final, released⟩
  refine (record_tandem released _).bind ?_
  exact fun _ _ _ noted => .pure ⟨final, noted⟩

theorem zeroAllocate_tandem (twins : Twins layout left right) (count size : Nat) :
    Tandem (zeroAllocate count size) left right AreTwins := by
  unfold zeroAllocate
  by_cases large : wordLimit ≤ count * size
  · rw [if_pos large]
    exact .pure ⟨layout, twins⟩
  rw [if_neg large]
  refine (allocate_tandem twins (count * size)).bind ?_
  rintro (error | address) first second ⟨others, allocated, -, block⟩
  · exact .pure ⟨others, allocated⟩
  rcases block address rfl with ⟨-, rfl⟩ | ⟨start, rfl, new⟩
  · exact .pure ⟨others, allocated⟩
  have bounds := blockSize_bounds (count * size)
  obtain ⟨-, -, -, -, room⟩ := allocated.describes.held_bounds new
  have top := allocated.hi
  have present : (!(⟨start + 8⟩ : Address).isNull) = true := by rw [Address.isNull_payload]; rfl
  -- The zeros go into a block that both heaps have gained.
  have fills (heap : Heap) (same : heap.arena.hi = first.arena.hi) :=
    Arena.fillBytes_returns heap.arena (start + 8) (count * size) 0 (by omega)
  unfold clear
  dsimp only
  rw [if_pos present]
  refine (onArena_tandem allocated new (Nat.le_refl _) (by omega) (fills first rfl)
    (fills second top) fun _ _ _ _ _ _ => rfl).bind ?_
  exact fun _ _ _ cleared => .pure ⟨others, cleared⟩

/-- Heaps that hold nothing but their first chunk are twins if they are tuned alike and have the
same room, whatever was in them before. -/
theorem twins_of_emptied {old older : Heap} (emptied : Emptied old left)
    (otherEmptied : Emptied older right) (config : older.config = old.config)
    (capacity : older.arena.capacity = old.arena.capacity)
    (backing : older.arena.backing = old.arena.backing ∨ old.arena.capacity ≤ Arena.bufferLimit)
    (roomy : old.Roomy) (otherRoomy : older.Roomy) : ∃ layout, Twins layout left right := by
  obtain ⟨layout, describes, none, chains⟩ := emptied.layout
  obtain ⟨others, described, nothing, listed⟩ := otherEmptied.layout
  refine ⟨layout, .of_held ?_ ?_ ?_ ?_ (emptied.roomy roomy) (otherEmptied.roomy otherRoomy)
    describes described ?_ ?_⟩
  · rw [emptied.config, otherEmptied.config, config]
  · rw [emptied.capacity, otherEmptied.capacity, capacity]
  · rw [emptied.top, otherEmptied.top, config]
  · rw [emptied.backing, otherEmptied.backing, emptied.capacity]
    exact backing
  · exact fun offset size => iff_of_false (none offset size) (nothing offset size)
  · rw [chains, listed, config]

theorem reset_tandem (twins : Twins layout left right) :
    Tandem Call.reset.run left right AreTwins := by
  refine .of_returns (reset_returns_emptied twins.roomy)
    (reset_returns_emptied twins.otherRoomy) ?_
  rintro _ first _ second ⟨rfl, emptied⟩ ⟨rfl, also⟩
  exact ⟨rfl, twins_of_emptied emptied also twins.config twins.capacity twins.backing twins.roomy
    twins.otherRoomy⟩

end Heap

variable {layout : Layout} {left right : Heap} {live : List Address} {call : Call}

/-- A permitted call that does not write answers the same on twins and leaves twins. -/
theorem Call.tandem (twins : Heap.Twins layout left right)
    (members : ∀ address, address ∈ live ↔ Owned (Held layout.blocks) address)
    (permitted : call.Permitted live) (decides : ¬call.IsWrite) :
    Tandem call.run left right Heap.AreTwins := by
  -- Two kinds of call are put together from releases and allocations.
  have releases (address : Address) (named : address = .null ∨ address ∈ live) :
      Tandem (Heap.release address) left right Heap.AreTwins := by
    rcases named with rfl | member
    · exact .pure ⟨layout, twins⟩
    · obtain ⟨offset, size, held, rfl⟩ := (members address).mp member
      exact Heap.release_tandem twins held
  have allocates (size : Nat) : Tandem (Heap.allocate size) left right Heap.AreTwins :=
    (Heap.allocate_tandem twins size).mono fun _ _ _ ⟨others, served, _⟩ => ⟨others, served⟩
  cases call with
  | allocate size => exact allocates size
  | zeroAllocate count size => exact Heap.zeroAllocate_tandem twins count size
  | resize address size =>
    rcases Nat.eq_zero_or_pos size with rfl | positive
    · exact (releases address permitted).bind fun _ _ _ released => .pure released
    · rcases permitted with rfl | member
      · exact (allocates size).congr (Heap.resize_null positive left)
          (Heap.resize_null positive right)
      · obtain ⟨offset, old, held, rfl⟩ := (members address).mp member
        exact Heap.resize_tandem twins held positive
  | release address => exact (releases address permitted).bind fun _ _ _ released => .pure released
  | reset => exact Heap.reset_tandem twins
  | write | fill => exact absurd trivial decides

end BoundaryTag
