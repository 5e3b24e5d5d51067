import BoundaryTag.Proofs.Allocation

/-!
# Payloads

The payload of an allocated block is all of the block but its header. Headers, footers and links of
a described heap lie outside all payloads, so whatever is written into a payload, the heap is still
described by the same layout.
-/
namespace BoundaryTag

open Validator (Entry)

variable {arena after : Arena} {lists : FreeLists} {layout : Layout} {entry other : Entry}

theorem Validator.Entry.payload_bounds {position : Nat} (payload : entry.Payload position) :
    entry.offset + 8 ≤ position ∧ position < entry.stop :=
  payload.2

namespace Layout.Describes

theorem disjoint (describes : layout.Describes arena lists) (here : entry ∈ layout.blocks)
    (there : other ∈ layout.blocks) (different : entry ≠ other) : entry.Disjoint other :=
  (Draft.of_describes describes).disjoint (List.mem_append_left _ here)
    (List.mem_append_left _ there) different

/-- No tag of any block lies in a payload. -/
theorem not_tag_of_payload (describes : layout.Describes arena lists) (here : entry ∈ layout.blocks)
    (there : other ∈ layout.blocks) {position : Nat} (payload : entry.Payload position) :
    ¬other.Tag position := by
  intro tag
  by_cases same : entry = other
  · subst same
    exact Entry.not_payload_of_tag tag payload
  · exact describes.disjoint here there same position
      ⟨Entry.area_of_payload payload, Entry.area_of_tag tag⟩

/-- A heap may be written to inside its payloads. -/
theorem confined {touched : Nat → Prop} (describes : layout.Describes arena lists)
    (confined : Arena.Confined touched arena after)
    (inside : ∀ position, touched position → ∃ entry ∈ layout.blocks, entry.Payload position) :
    layout.Describes after lists := by
  have tiling := describes.tiling
  have whole := Draft.of_describes describes
  -- Sentinels, tags and links are no payload, so each of them reads as before.
  have bounds (position : Nat) (touches : touched position) :
      16 ≤ position ∧ position + 8 < arena.hi := by
    obtain ⟨entry, member, payload⟩ := inside position touches
    have bounds := tiling.bounds member
    have range := Entry.payload_bounds payload
    omega
  have prologue : after.word 0 = arena.word 0 := by
    refine confined.word 0 fun position low touches => ?_
    have range := bounds position touches
    unfold Span at low
    omega
  have epilogue : after.epilogue = arena.epilogue := by
    have room := tiling.room
    have same : after.word (arena.hi - 8) = arena.word (arena.hi - 8) := by
      refine confined.word _ fun position high touches => ?_
      have range := bounds position touches
      unfold Span at high
      omega
    rw [Arena.epilogue, Arena.epilogue, confined.hi, same]
  have listed : Listed after lists layout.chains := by
    refine describes.listed.confined confined fun bucket offset listed position kept touches => ?_
    obtain ⟨free, -, present, isFree, real, rfl, -⟩ := whole.exists_of_listed listed
    obtain ⟨entry, member, payload⟩ := inside position touches
    have different : free ≠ entry := by
      rintro rfl
      exact Entry.not_free_of_allocated payload.1 isFree
    refine whole.disjoint present (List.mem_append_left _ member) different position
      ⟨?_, Entry.area_of_payload payload⟩
    rw [Arena.Kept, whole.sizeAt present] at kept
    unfold Entry.Area Entry.stop Span at *
    omega
  constructor
  · refine ⟨?_, ?_, ?_, ?_, tiling.real, tiling.reserved, fun other there => ?_⟩
    · rw [confined.hi]
      exact tiling.room
    · rw [prologue]
      exact tiling.prologue
    · rw [epilogue]
      exact tiling.epilogue
    · rw [epilogue]
      exact tiling.chain
    · refine (tiling.stored other there).confined confined fun position tag touches => ?_
      obtain ⟨entry, member, payload⟩ := inside position touches
      exact describes.not_tag_of_payload member there payload tag
  · exact ⟨listed.heads, listed.links, listed.nodup, describes.listing.members⟩

theorem held_bounds {offset size : Nat} (describes : layout.Describes arena lists)
    (held : Held layout.blocks offset size) :
    offset % 16 = 8 ∧ size % 16 = 0 ∧ 8 ≤ offset ∧ 16 ≤ size ∧ offset + size + 8 ≤ arena.hi := by
  obtain ⟨entry, member, -, rfl, rfl⟩ := held
  have tiling := describes.tiling
  have bounds := tiling.bounds member
  exact ⟨tiling.offset_mod member, entry.size_mod, bounds.1, tiling.real entry member, bounds.2⟩

theorem held_apart {offset size place width : Nat} (describes : layout.Describes arena lists)
    (left : Held layout.blocks offset size) (right : Held layout.blocks place width)
    (different : offset ≠ place) : offset + size ≤ place ∨ place + width ≤ offset := by
  obtain ⟨entry, here, -, rfl, rfl⟩ := left
  obtain ⟨other, there, -, rfl, rfl⟩ := right
  exact describes.tiling.clear here there fun same => different (by rw [same])

end Layout.Describes

namespace Heap

variable {heap later : Heap} {offset size : Nat}

def contents (arena : Arena) (offset length : Nat) : List UInt8 :=
  (List.range length).map fun index => arena.byte (offset + index)

theorem contents_congr {offset place length : Nat}
    (same : ∀ index < length, after.byte (place + index) = arena.byte (offset + index)) :
    contents after place length = contents arena offset length :=
  List.map_congr_left fun index member => same index (List.mem_range.mp member)

theorem contents_take (arena : Arena) (offset : Nat) {length shorter : Nat}
    (short : shorter ≤ length) :
    (contents arena offset length).take shorter = contents arena offset shorter := by
  rw [contents, ← List.map_take, List.take_range, Nat.min_eq_left short, contents]

theorem length_contents (arena : Arena) (offset length : Nat) :
    (contents arena offset length).length = length := by
  rw [contents, List.length_map, List.length_range]

theorem contents_prefix {offset place length shorter : Nat}
    (same : contents after place length = contents arena offset length) (short : shorter ≤ length) :
    contents after place shorter = contents arena offset shorter := by
  rw [← contents_take after place short, same, contents_take arena offset short]

section Held

variable (describes : layout.Describes heap.arena heap.lists)
  (held : Held layout.blocks offset size)

include describes held

theorem usableSize_of_held : heap.usableSize ⟨offset + 8⟩ = .ok (size - 8) := by
  obtain ⟨-, -, low, real, high⟩ := describes.held_bounds held
  obtain ⟨entry, member, -, rfl, rfl⟩ := held
  have read := Block.size_of_stored entry (describes.tiling.stored entry member) (by omega)
  have width : subWord entry.size 8 = .ok (entry.size - 8) := subWord_of_le entry.size 8 (by omega)
  rw [usableSize, Address.isNull_payload, wordSize_eq]
  simp only [Block.ofPayload_add, read, width, bind, Except.bind, Bool.false_eq_true, if_false]

theorem payloadSize_of_held : heap.payloadSize ⟨offset + 8⟩ = .ok (size - 8) := by
  obtain ⟨-, -, -, real, high⟩ := describes.held_bounds held
  have inside : offset + 8 + (size - 8) ≤ heap.arena.hi := by omega
  rw [payloadSize, except_bind_of_ok (usableSize_of_held describes held)]
  exact if_pos inside

theorem payload_of_held :
    heap.payload ⟨offset + 8⟩ = .ok (contents heap.arena (offset + 8) (size - 8)) := by
  obtain ⟨-, -, -, real, high⟩ := describes.held_bounds held
  rw [payload, except_bind_of_ok (payloadSize_of_held describes held)]
  have inside : offset + 8 + (size - 8) ≤ heap.arena.hi := by omega
  exact Arena.readBytes_of_le _ _ _ inside

end Held

/-- What is preserved includes all payloads of the blocks. -/
theorem Preserves.byte {blocks : List Entry} (preserves : Preserves blocks heap later)
    (held : Held blocks offset size) {position : Nat} (low : offset + 8 ≤ position)
    (high : position < offset + size) : later.arena.byte position = heap.arena.byte position := by
  obtain ⟨entry, member, allocated, rfl, rfl⟩ := held
  exact preserves.payload position fun outside => outside entry member ⟨allocated, low, high⟩

theorem Preserves.contents {blocks : List Entry} (preserves : Preserves blocks heap later)
    (held : Held blocks offset size) :
    contents later.arena (offset + 8) (size - 8) = contents heap.arena (offset + 8) (size - 8) :=
  contents_congr fun _ below => preserves.byte held (by omega) (by omega)

/-- A write into one payload changes the bytes of that payload only. -/
structure Writes (offset size : Nat) (before after : Heap) : Prop where
  config : after.config = before.config
  lists : after.lists = before.lists
  confined : Arena.Confined (Span (offset + 8) (offset + size)) before.arena after.arena

theorem Writes.describes (writes : Writes offset size heap later)
    (describes : layout.Describes heap.arena heap.lists) (held : Held layout.blocks offset size) :
    layout.Describes later.arena later.lists := by
  obtain ⟨entry, member, allocated, rfl, rfl⟩ := held
  rw [writes.lists]
  exact describes.confined writes.confined fun _ inside => ⟨entry, member, allocated, inside⟩

theorem Writes.contents {place width : Nat} (writes : Writes offset size heap later)
    (describes : layout.Describes heap.arena heap.lists) (held : Held layout.blocks offset size)
    (other : Held layout.blocks place width) (different : place ≠ offset) :
    contents later.arena (place + 8) (width - 8) = contents heap.arena (place + 8) (width - 8) := by
  have apart := describes.held_apart other held different
  refine contents_congr fun index below => writes.confined.byte _ fun inside => ?_
  unfold Span at inside
  omega

theorem onArena_writes {Result : Type} {action : ArenaM Result} {start stop : Nat}
    {post : Result → Arena → Prop} (offset size : Nat) (low : offset + 8 ≤ start)
    (high : stop ≤ offset + size)
    (returns : Returns action heap.arena fun result after =>
      Arena.Confined (Span start stop) heap.arena after ∧ post result after) :
    Returns (onArena action) heap fun result after =>
      Writes offset size heap after ∧ post result after.arena := by
  refine (onArena_returns returns).mono ?_
  rintro result after ⟨only, confined, holds⟩
  refine ⟨⟨by rw [only], by rw [only], confined.mono fun position inside => ?_⟩, holds⟩
  unfold Span at *
  omega

section Writing

variable (describes : layout.Describes heap.arena heap.lists)
  (held : Held layout.blocks offset size)

include describes held

theorem writePayload_returns (index : Nat) (bytes : ByteArray) :
    Returns (writePayload ⟨offset + 8⟩ index bytes) heap fun length after =>
      length = min bytes.size (size - 8 - min index (size - 8)) ∧ Writes offset size heap after
        ∧ ∀ place < length, after.arena.byte (offset + 8 + min index (size - 8) + place) =
          Bytes.get bytes place := by
  obtain ⟨-, -, -, real, high⟩ := describes.held_bounds held
  unfold writePayload
  refine Returns.step (reading_of_ok (payloadSize_of_held describes held)) ?_
  have written := Arena.writeBytes_returns heap.arena (offset + 8 + min index (size - 8))
    (min bytes.size (size - 8 - min index (size - 8))) (Bytes.get bytes) (by omega)
  refine (onArena_writes offset size (by omega) (by omega) written).bind ?_
  rintro ⟨⟩ after ⟨writes, stored⟩
  exact Returns.pure ⟨rfl, writes, stored⟩

theorem fillPayload_returns (byte : UInt8) :
    Returns (fillPayload ⟨offset + 8⟩ byte) heap fun length after =>
      length = size - 8 ∧ Writes offset size heap after
        ∧ ∀ place < length, after.arena.byte (offset + 8 + place) = byte := by
  obtain ⟨-, -, -, real, high⟩ := describes.held_bounds held
  unfold fillPayload
  refine Returns.step (reading_of_ok (payloadSize_of_held describes held)) ?_
  have filled := Arena.fillBytes_returns heap.arena (offset + 8) (size - 8) byte (by omega)
  refine (onArena_writes offset size (by omega) (by omega) filled).bind ?_
  rintro ⟨⟩ after ⟨writes, stored⟩
  exact Returns.pure ⟨rfl, writes, stored⟩

end Writing

end Heap

end BoundaryTag
