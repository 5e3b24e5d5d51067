import BoundaryTag.Proofs.Payloads

/-!
# What operations do to the allocated blocks

Each operation is described by the blocks that are held after it, given those that were held before,
and leaves the payloads of all blocks that it is not about. A resize is an allocation, a copy and a
release, and its copy lies inside the new block; so the old payload is read and the others are
spared however the heap has been cut and joined in between.
-/
namespace BoundaryTag.Heap

open Validator (Entry)

variable {heap later : Heap} {layout : Layout} {offset size : Nat}

/-- The heap holds certain blocks, and the payloads of those that it held before, and was to spare,
are as they were. -/
structure Becomes (blocks : List Entry) (held : Nat → Nat → Prop) (spared : Nat → Prop)
    (before after : Heap) : Prop where
  layout : ∃ others : Layout, others.Describes after.arena after.lists
    ∧ ∀ offset size, Held others.blocks offset size ↔ held offset size
  config : after.config = before.config
  capacity : after.arena.capacity = before.arena.capacity
  backing : after.arena.backing = before.arena.backing
  higher : before.arena.hi ≤ after.arena.hi
  payload : ∀ offset size, Held blocks offset size → held offset size → spared offset →
    contents after.arena (offset + 8) (size - 8) = contents before.arena (offset + 8) (size - 8)

theorem Becomes.roomy {blocks : List Entry} {held : Nat → Nat → Prop} {spared : Nat → Prop}
    (becomes : Becomes blocks held spared heap later) (roomy : heap.Roomy) : later.Roomy :=
  roomy.congr becomes.config becomes.capacity becomes.backing

theorem Unchanged.becomes (same : Unchanged heap later)
    (describes : layout.Describes heap.arena heap.lists) :
    Becomes layout.blocks (Held layout.blocks) (fun _ => True) heap later := by
  obtain ⟨config, arena, lists⟩ := same
  rw [← arena, ← lists] at describes
  refine ⟨⟨layout, describes, fun _ _ => Iff.rfl⟩, config, by rw [arena], by rw [arena],
    by rw [arena], ?_⟩
  intro offset size _ _ _
  rw [arena]

theorem Gains.becomes {blocks : List Entry} (gains : Gains blocks offset size heap later) :
    Becomes blocks (fun place width => Held blocks place width ∨ (place = offset ∧ width = size))
      (fun _ => True) heap later := by
  obtain ⟨layout, -, preserves⟩ := gains
  refine ⟨layout, preserves.config, preserves.capacity, preserves.backing, preserves.higher, ?_⟩
  exact fun _ _ held _ _ => preserves.contents held

theorem Writes.becomes (writes : Writes offset size heap later)
    (describes : layout.Describes heap.arena heap.lists) (held : Held layout.blocks offset size) :
    Becomes layout.blocks (Held layout.blocks) (fun place => place ≠ offset) heap later := by
  have confined := writes.confined
  refine ⟨⟨layout, writes.describes describes held, fun _ _ => Iff.rfl⟩, writes.config,
    confined.capacity, confined.backing, Nat.le_of_eq confined.hi.symm, ?_⟩
  exact fun _ _ other _ different => writes.contents describes held other different

/-- The null address has no payload, so writing there writes nothing. -/
theorem onArena_becomes_of_none {Result : Type} {action : ArenaM Result} {touched : Nat → Prop}
    {post : Result → Arena → Prop} (none : ∀ position, ¬touched position)
    (describes : layout.Describes heap.arena heap.lists)
    (returns : Returns action heap.arena fun result after =>
      Arena.Confined touched heap.arena after ∧ post result after) :
    Returns (onArena action) heap fun _ after =>
      Becomes layout.blocks (Held layout.blocks) (fun _ => True) heap after := by
  refine (onArena_returns returns).mono ?_
  rintro result after ⟨only, confined, -⟩
  have config : after.config = heap.config := by rw [only]
  have lists : after.lists = heap.lists := by rw [only]
  refine ⟨⟨layout, ?_, fun _ _ => Iff.rfl⟩, config, confined.capacity, confined.backing,
    Nat.le_of_eq confined.hi.symm, ?_⟩
  · rw [lists]
    exact describes.confined confined fun position inside => absurd inside (none position)
  · exact fun _ _ _ _ _ => contents_congr fun _ _ => confined.byte _ (none _)

theorem payloadSize_null (heap : Heap) : heap.payloadSize .null = .ok 0 := by
  have usable : heap.usableSize .null = .ok 0 := rfl
  rw [payloadSize, except_bind_of_ok usable]
  exact if_pos (Nat.zero_le _)

theorem writePayload_null (describes : layout.Describes heap.arena heap.lists) (index : Nat)
    (bytes : ByteArray) :
    Returns (writePayload .null index bytes) heap fun _ after =>
      Becomes layout.blocks (Held layout.blocks) (fun _ => True) heap after := by
  have written := Arena.writeBytes_returns heap.arena (0 + min index 0)
    (min bytes.size (0 - min index 0)) (Bytes.get bytes) (by omega)
  have none (position : Nat) : ¬Span (0 + min index 0)
      (0 + min index 0 + min bytes.size (0 - min index 0)) position := by
    unfold Span
    omega
  unfold writePayload
  refine Returns.step (reading_of_ok (payloadSize_null heap)) ?_
  refine (onArena_becomes_of_none none describes written).bind ?_
  exact fun _ _ same => Returns.pure same

theorem fillPayload_null (describes : layout.Describes heap.arena heap.lists) (byte : UInt8) :
    Returns (fillPayload .null byte) heap fun _ after =>
      Becomes layout.blocks (Held layout.blocks) (fun _ => True) heap after := by
  have filled := Arena.fillBytes_returns heap.arena 0 0 byte (Nat.zero_le _)
  have none (position : Nat) : ¬Span 0 (0 + 0) position := by
    unfold Span
    omega
  unfold fillPayload
  refine Returns.step (reading_of_ok (payloadSize_null heap)) ?_
  refine (onArena_becomes_of_none none describes filled).bind ?_
  exact fun _ _ same => Returns.pure same

theorem release_becomes (describes : layout.Describes heap.arena heap.lists)
    (held : Held layout.blocks offset size) :
    Returns (release ⟨offset + 8⟩) heap fun _ after =>
      Becomes layout.blocks (fun place width => Held layout.blocks place width ∧ place ≠ offset)
        (fun _ => True) heap after := by
  obtain ⟨entry, member, allocated, rfl, rfl⟩ := held
  obtain ⟨fore, aft, split⟩ := List.append_of_mem member
  refine (release_returns describes split allocated).mono ?_
  rintro ⟨⟩ after ⟨others, described, holds, -, -, frees, -⟩
  have preserves := Preserves.of_alters frees.toAlters
  refine ⟨⟨others, described, holds⟩, preserves.config, preserves.capacity, preserves.backing,
    preserves.higher, ?_⟩
  exact fun place width _ kept _ => preserves.contents ((holds place width).mpr kept)

/-- One operation after the other spares what both of them spare, if what is held at both ends is
held in between. -/
theorem Becomes.trans {others : Layout} {blocks : List Entry} {held final : Nat → Nat → Prop}
    {spared also : Nat → Prop} {first second third : Heap}
    (left : Becomes blocks held spared first second)
    (same : ∀ place width, Held others.blocks place width ↔ held place width)
    (right : Becomes others.blocks final also second third)
    (through : ∀ place width, Held blocks place width → final place width → held place width) :
    Becomes blocks final (fun place => spared place ∧ also place) first third := by
  refine ⟨right.layout, right.config.trans left.config, right.capacity.trans left.capacity,
    right.backing.trans left.backing, left.higher.trans right.higher, ?_⟩
  rintro place width before after ⟨first, second⟩
  have between := through place width before after
  rw [right.payload place width ((same place width).mpr between) after second]
  exact left.payload place width before between first

/-- Blocks that were not held before need not be spared. -/
theorem Becomes.spare {blocks : List Entry} {held : Nat → Nat → Prop} {spared also : Nat → Prop}
    (becomes : Becomes blocks held spared heap later)
    (more : ∀ place width, Held blocks place width → also place → spared place) :
    Becomes blocks held also heap later :=
  ⟨becomes.layout, becomes.config, becomes.capacity, becomes.backing, becomes.higher,
    fun place width before after also =>
      becomes.payload place width before after (more place width before also)⟩

theorem Becomes.congr {blocks : List Entry} {held final : Nat → Nat → Prop} {spared : Nat → Prop}
    (becomes : Becomes blocks held spared heap later)
    (same : ∀ place width, held place width ↔ final place width) :
    Becomes blocks final spared heap later := by
  have equal : held = final := funext fun place => funext fun width => propext (same place width)
  exact equal ▸ becomes

theorem Becomes.unchanged {blocks : List Entry} {held : Nat → Nat → Prop} {spared : Nat → Prop}
    {final : Heap} (becomes : Becomes blocks held spared heap later)
    (same : Unchanged later final) : Becomes blocks held spared heap final := by
  obtain ⟨config, arena, lists⟩ := same
  obtain ⟨layout, kept, capacity, backing, higher, payload⟩ := becomes
  rw [← arena, ← lists] at layout
  rw [← arena] at capacity backing higher payload
  exact ⟨layout, config.trans kept, capacity, backing, higher, payload⟩

/-- What a request for memory may leave: a heap with one more block than it keeps, of which a detail
is known, or the heap as it was. -/
inductive Hands (blocks : List Entry) (kept : Nat → Nat → Prop) (size : Nat)
    (detail : Nat → Prop) (before after : Heap) : Except AllocError Address → Prop
  | nothing (none : size = 0) (same : Unchanged before after) :
    Hands blocks kept size detail before after (.ok .null)
  | refused (error : AllocError) (reason : error.IsRefusal) (same : Unchanged before after) :
    Hands blocks kept size detail before after (.error error)
  | block (start : Nat) (positive : 0 < size) (fresh : ∀ width, ¬Held blocks start width)
      (becomes : Becomes blocks
        (fun place width => kept place width ∨ (place = start ∧ width = blockSize size))
        (fun _ => True) before after)
      (holds : detail start) :
    Hands blocks kept size detail before after (.ok ⟨start + 8⟩)

/-- The null address is handed out for no bytes and for no bytes only. -/
theorem Hands.isNull_iff {blocks : List Entry} {kept : Nat → Nat → Prop} {detail : Nat → Prop}
    {address : Address} (hands : Hands blocks kept size detail heap later (.ok address)) :
    address.isNull = true ↔ size = 0 := by
  cases hands with
  | nothing none => exact iff_of_true rfl none
  | block start positive =>
    rw [Address.isNull_payload]
    exact iff_of_false Bool.false_ne_true (Nat.ne_of_gt positive)

theorem allocate_hands (describes : layout.Describes heap.arena heap.lists) (roomy : heap.Roomy)
    (size : Nat) :
    (Returns (allocate size) heap fun result after =>
        Hands layout.blocks (Held layout.blocks) size (fun _ => True) heap after result)
      ∨ ∃ fault, allocate size heap = .error fault heap ∧ Halts size heap fault := by
  refine (allocate_spec describes roomy size).imp_left fun returns => returns.mono ?_
  rintro _ after (⟨none, same⟩ | ⟨error, reason, same⟩ | ⟨start, positive, gains⟩)
  · exact .nothing none same
  · exact .refused error reason.isRefusal same
  · exact .block start positive gains.fresh gains.becomes trivial

/-- The bytes of the old payload that fit into the new one are there. -/
def Copied (before after : Heap) (offset length start : Nat) : Prop :=
  contents after.arena (start + 8) length = contents before.arena (offset + 8) length

/-- A copy into a block just gained, and then a release of the block it was copied from. -/
theorem move_returns {old start : Nat} (held : Held layout.blocks offset old)
    (gains : Gains layout.blocks start (blockSize size) heap later) :
    Returns (onArena (Arena.copyBytes (offset + 8) (start + 8) (min (old - 8) size))) later
      fun _ copied => Returns (release ⟨offset + 8⟩) copied fun _ after =>
        Copied heap after offset (min (old - 8) size) start
          ∧ Becomes layout.blocks
            (fun place width => (Held layout.blocks place width ∧ place ≠ offset)
              ∨ (place = start ∧ width = blockSize size)) (fun _ => True) heap after := by
  have grown := gains.becomes
  obtain ⟨⟨others, described, holds⟩, fresh, preserves⟩ := gains
  have new : Held others.blocks start (blockSize size) := (holds _ _).mpr (.inr ⟨rfl, rfl⟩)
  have kept : Held others.blocks offset old := (holds _ _).mpr (.inl held)
  have apart : start ≠ offset := fun same => fresh old (same ▸ held)
  have bounds := blockSize_bounds size
  obtain ⟨-, -, -, -, inside⟩ := described.held_bounds kept
  obtain ⟨-, -, -, -, fits⟩ := described.held_bounds new
  have copies := Arena.copyBytes_returns later.arena (offset + 8) (start + 8)
    (min (old - 8) size) (by omega) (by omega)
  refine (onArena_writes start (blockSize size) (by omega) (by omega) copies).mono ?_
  rintro ⟨⟩ copied ⟨writes, same⟩
  refine (release_becomes (writes.describes described new) kept).mono ?_
  rintro ⟨⟩ after released
  -- Read backwards: the release spares the new payload, the copy filled it from the old one, and
  -- the allocation has left the old one alone.
  constructor
  · calc contents after.arena (start + 8) (min (old - 8) size)
        = contents copied.arena (start + 8) (min (old - 8) size) :=
          contents_prefix (released.payload start _ new ⟨new, apart⟩ trivial) (by omega)
      _ = contents later.arena (offset + 8) (min (old - 8) size) := contents_congr same
      _ = contents heap.arena (offset + 8) (min (old - 8) size) :=
          contents_prefix (preserves.contents held) (Nat.min_le_left _ _)
  · have whole := (grown.trans holds (writes.becomes described new)
      fun place width _ => (holds place width).mp).trans (fun _ _ => Iff.rfl) released
      fun _ _ _ final => final.1
    refine (whole.congr fun place width => ?_).spare fun place width before _ => ?_
    · rw [holds, or_and_right]
      refine or_congr_right ⟨And.left, fun final => ⟨final, ?_⟩⟩
      rw [final.1]
      exact apart
    · exact ⟨⟨trivial, fun same => fresh width (same ▸ before)⟩, trivial⟩

/-- What a resize does with the answer of its allocation. -/
def finishMove (address : Address) (oldSize size : Nat) (answer : Except AllocError Address) :
    HeapM (Except AllocError Address) := do
  match answer with
  | .error error => return .error error
  | .ok moved =>
    let length := min oldSize size
    onArena (Arena.copyBytes address.offset moved.offset length)
    release address
    record (.resized address size moved length)
    return .ok moved

theorem resize_eq {old : Nat} (describes : layout.Describes heap.arena heap.lists)
    (held : Held layout.blocks offset old) (positive : 0 < size) :
    resize ⟨offset + 8⟩ size heap =
      (allocate size >>= finishMove ⟨offset + 8⟩ (old - 8) size) heap := by
  have nonzero : ¬size = 0 := by omega
  have read : reading (fun heap : Heap => heap.usableSize ⟨offset + 8⟩) heap =
      .ok (old - 8) heap := reading_of_ok (usableSize_of_held describes held)
  unfold resize
  rw [if_neg nonzero, Address.isNull_payload, if_neg Bool.false_ne_true]
  exact bind_of_ok read

/-- Once a new block is there, a resize goes on to its end. -/
theorem resize_of_gains {old start : Nat} {first : Heap}
    (describes : layout.Describes heap.arena heap.lists) (held : Held layout.blocks offset old)
    (positive : 0 < size) (run : allocate size heap = .ok (.ok ⟨start + 8⟩) first)
    (gains : Gains layout.blocks start (blockSize size) heap first) :
    Returns (resize ⟨offset + 8⟩ size) heap fun result after => result = .ok ⟨start + 8⟩
      ∧ Copied heap after offset (min (old - 8) size) start
      ∧ Becomes layout.blocks
        (fun place width => (Held layout.blocks place width ∧ place ≠ offset)
          ∨ (place = start ∧ width = blockSize size)) (fun _ => True) heap after := by
  unfold Returns
  rw [resize_eq describes held positive]
  refine Returns.step run ?_
  -- The bytes are copied and the old block goes.
  refine (move_returns held gains).bind ?_
  rintro ⟨⟩ copied moves
  refine moves.bind ?_
  rintro ⟨⟩ moved ⟨same, becomes⟩
  refine (record_returns _).bind ?_
  rintro ⟨⟩ after unchanged
  have copy : Copied heap after offset (min (old - 8) size) start := by
    rw [Copied, unchanged.arena]
    exact same
  exact Returns.pure ⟨rfl, copy, becomes.unchanged unchanged⟩

theorem resize_hands (describes : layout.Describes heap.arena heap.lists) (roomy : heap.Roomy)
    {old : Nat} (held : Held layout.blocks offset old) (positive : 0 < size) :
    (Returns (resize ⟨offset + 8⟩ size) heap fun result after =>
        Hands layout.blocks (fun place width => Held layout.blocks place width ∧ place ≠ offset)
          size (Copied heap after offset (min (old - 8) size)) heap after result)
      ∨ ∃ fault, resize ⟨offset + 8⟩ size heap = .error fault heap ∧ Halts size heap fault := by
  have first := resize_eq describes held positive
  rcases allocate_spec describes roomy size with
    ⟨_, middle, run, ⟨none, -⟩ | ⟨error, reason, same⟩ | ⟨start, -, gains⟩⟩ | ⟨fault, fails, halts⟩
  · exact absurd none (Nat.ne_of_gt positive)
  · exact .inl (.of_eq (first.trans (bind_of_ok run)) (.refused error reason.isRefusal same))
  · refine .inl ((resize_of_gains describes held positive run gains).mono ?_)
    rintro _ after ⟨rfl, copy, becomes⟩
    exact .block start positive gains.fresh becomes copy
  · exact .inr ⟨fault, first.trans (bind_of_error fails), halts⟩

theorem resize_null (positive : 0 < size) (heap : Heap) :
    resize .null size heap = allocate size heap := by
  have nonzero : ¬size = 0 := by omega
  unfold resize
  rw [if_neg nonzero]
  rfl

def Cleared (after : Heap) (length start : Nat) : Prop :=
  ∀ index < length, after.arena.byte (start + 8 + index) = 0

theorem clear_returns {start : Nat}
    (gains : Gains layout.blocks start (blockSize size) heap later) :
    Returns (clear ⟨start + 8⟩ size) later fun _ after => Cleared after size start
      ∧ Becomes layout.blocks (fun place width => Held layout.blocks place width
        ∨ (place = start ∧ width = blockSize size)) (fun _ => True) heap after := by
  have grown := gains.becomes
  obtain ⟨⟨others, described, holds⟩, fresh, -⟩ := gains
  have new : Held others.blocks start (blockSize size) := (holds _ _).mpr (.inr ⟨rfl, rfl⟩)
  have bounds := blockSize_bounds size
  obtain ⟨-, -, -, -, fits⟩ := described.held_bounds new
  have present : (!(⟨start + 8⟩ : Address).isNull) = true := by rw [Address.isNull_payload]; rfl
  have fills := Arena.fillBytes_returns later.arena (start + 8) size 0 (by omega)
  unfold clear
  rw [if_pos present]
  refine (onArena_writes start (blockSize size) (by omega) (by omega) fills).mono ?_
  rintro ⟨⟩ after ⟨writes, zero⟩
  refine ⟨zero, ?_⟩
  -- The zeros are written into a block that was not held before, so no payload is overwritten.
  have whole := grown.trans holds (writes.becomes described new)
    fun place width _ => (holds place width).mp
  refine (whole.congr holds).spare fun place width before _ => ?_
  exact ⟨trivial, fun same => fresh width (same ▸ before)⟩

/-- What a cleared allocation does with the answer of its allocation. -/
def finishClear (total : Nat) (answer : Except AllocError Address) :
    HeapM (Except AllocError Address) := do
  match answer with
  | .error error => return .error error
  | .ok address =>
    clear address total
    return .ok address

theorem zeroAllocate_eq {count item : Nat} (small : ¬wordLimit ≤ count * item) :
    zeroAllocate count item = allocate (count * item) >>= finishClear (count * item) :=
  if_neg small

/-- Once a new block is there, it is cleared and handed out. -/
theorem zeroAllocate_of_gains {start count item : Nat} {first : Heap}
    (small : ¬wordLimit ≤ count * item)
    (run : allocate (count * item) heap = .ok (.ok ⟨start + 8⟩) first)
    (gains : Gains layout.blocks start (blockSize (count * item)) heap first) :
    Returns (zeroAllocate count item) heap fun result after => result = .ok ⟨start + 8⟩
      ∧ Cleared after (count * item) start
      ∧ Becomes layout.blocks (fun place width => Held layout.blocks place width
        ∨ (place = start ∧ width = blockSize (count * item))) (fun _ => True) heap after := by
  rw [zeroAllocate_eq small]
  refine Returns.step run ?_
  refine (clear_returns gains).bind ?_
  rintro ⟨⟩ after ⟨zero, becomes⟩
  exact Returns.pure ⟨rfl, zero, becomes⟩

theorem zeroAllocate_hands (describes : layout.Describes heap.arena heap.lists)
    (roomy : heap.Roomy) (count size : Nat) :
    (Returns (zeroAllocate count size) heap fun result after =>
        Hands layout.blocks (Held layout.blocks) (count * size) (Cleared after (count * size)) heap
          after result)
      ∨ ∃ fault, zeroAllocate count size heap = .error fault heap
        ∧ Halts (count * size) heap fault := by
  by_cases large : wordLimit ≤ count * size
  · unfold zeroAllocate
    rw [if_pos large]
    exact .inl (Returns.pure (.refused _ trivial ⟨rfl, rfl, rfl⟩))
  have first := zeroAllocate_eq large
  rcases allocate_spec describes roomy (count * size) with
    ⟨_, middle, run, ⟨none, same⟩ | ⟨error, reason, same⟩ | ⟨start, positive, gains⟩⟩
      | ⟨fault, fails, halts⟩
  · rw [first]
    exact .inl (Returns.step run (Returns.pure (.nothing none same)))
  · rw [first]
    exact .inl (Returns.step run (Returns.pure (.refused error reason.isRefusal same)))
  · refine .inl ((zeroAllocate_of_gains large run gains).mono ?_)
    rintro _ after ⟨rfl, zero, becomes⟩
    exact .block start positive gains.fresh becomes zero
  · rw [first]
    exact .inr ⟨fault, bind_of_error fails, halts⟩

end BoundaryTag.Heap
