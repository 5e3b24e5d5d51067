import BoundaryTag.Proofs.Twins

/-!
# Decisions do not depend on payloads

Two heaps agree in their tags when they have the same words where a heap keeps its books: headers,
links and footers, besides the break and the heads of the lists. Everything else may differ, namely
payloads, the insides of free blocks, what a former heap has left behind the break, and whether the
bytes are those of a buffer or of a mapping. Two reachable heaps that agree are run in lockstep:
they get the same calls, and each gets its own writes. Every call is answered alike, and they go on
agreeing.
-/
namespace BoundaryTag

open Validator (Entry)

/-- Arenas of one capacity can grow equally far if both are buffers, or both are mappings, or a
buffer can be as large as they are. -/
def Arena.GrowsLike (left right : Arena) : Prop :=
  right.backing = left.backing ∨ left.capacity ≤ bufferLimit

theorem Arena.GrowsLike.symm {left right : Arena} (alike : left.GrowsLike right)
    (capacity : right.capacity = left.capacity) : right.GrowsLike left :=
  alike.imp Eq.symm (capacity ▸ ·)

/-- The words of a block by which a heap finds its way. -/
structure SameBooks (view : BlockView) (left right : Arena) : Prop where
  header : right.readWord view.block.offset = left.readWord view.block.offset
  next : view.isFree = true →
    right.readWord (view.block.offset + 8) = left.readWord (view.block.offset + 8)
  prev : view.isFree = true → linkedBlockSize ≤ view.size →
    right.readWord (view.block.offset + 16) = left.readWord (view.block.offset + 16)
  footer : view.isFree = true → linkedBlockSize ≤ view.size →
    right.readWord (view.block.offset + view.size - 8) =
      left.readWord (view.block.offset + view.size - 8)

/-- Two heaps with the same tuning and the same room that agree in their break, their list heads and
the words of all their blocks that are not payload. -/
structure Heap.Agree (left right : Heap) : Prop where
  config : right.config = left.config
  capacity : right.arena.capacity = left.arena.capacity
  hi : right.arena.hi = left.arena.hi
  heads : ∀ bucket, right.lists.head bucket = left.lists.head bucket
  books : ∃ views, left.blocks = .ok views ∧ ∀ view ∈ views, SameBooks view left.arena right.arena

/-! ## Words and layouts -/

namespace Layout.Describes

variable {arena after : Arena} {lists edited : FreeLists} {layout others : Layout}

/-- The header words determine the blocks, so there are no two layouts of one heap. -/
theorem blocks_eq (left : layout.Describes arena lists) (right : others.Describes after edited)
    (top : after.hi = arena.hi)
    (words : ∀ entry ∈ layout.blocks, after.word entry.offset = arena.word entry.offset) :
    layout.blocks = others.blocks := by
  have fills := right.tiling.fills
  rw [top] at fills
  exact left.tiling.fills.unique_of_words fills
    (fun entry member => (words entry member).trans (left.tiling.stored entry member).header)
    fun entry member => (right.tiling.stored entry member).header

/-- A free block links to its neighbours on the list that it is on. -/
theorem links_of_free {entry : Entry} (describes : layout.Describes arena lists)
    (described : layout.Describes after edited) (member : entry ∈ layout.blocks)
    (free : entry.IsFree) : after.word (entry.offset + 8) = arena.word (entry.offset + 8)
      ∧ (32 ≤ entry.size → after.word (entry.offset + 16) = arena.word (entry.offset + 16)) := by
  have listed := (describes.listing.members (Bucket.classify entry.size) entry.offset).mpr
    ⟨entry, member, free, rfl, rfl⟩
  obtain ⟨before, rest, place⟩ := List.append_of_mem listed
  obtain ⟨next, back⟩ := FreeLists.links_of_place describes.listed place
  obtain ⟨otherNext, otherBack⟩ := FreeLists.links_of_place described.listed place
  refine ⟨otherNext.trans next.symm, fun large => ?_⟩
  have twoWay := (Bucket.isTwoWay_classify entry.size).mpr large
  exact (otherBack twoWay).trans (back twoWay).symm

end Layout.Describes

theorem Sound.members_iff {heap : Heap} {live : List Address} {layout : Layout}
    (sound : Sound heap live) (describes : layout.Describes heap.arena heap.lists)
    (address : Address) : address ∈ live ↔ Owned (Held layout.blocks) address := by
  obtain ⟨others, described, members⟩ := sound.layout
  rw [members, described.blocks_eq describes rfl fun _ _ => rfl]

namespace Heap

variable {left right : Heap} {layout others : Layout}

theorem word_of_readWord {before after : Arena} {offset : Nat} (top : after.hi = before.hi)
    (inside : offset + 8 ≤ before.hi) (same : after.readWord offset = before.readWord offset) :
    after.word offset = before.word offset := by
  rw [Arena.readWord_of_le after offset (by omega), Arena.readWord_of_le before offset inside]
    at same
  exact Except.ok.inj same

theorem readWord_congr {before after : Arena} {offset : Nat} (top : after.hi = before.hi)
    (inside : offset + 8 ≤ before.hi) (same : after.word offset = before.word offset) :
    after.readWord offset = before.readWord offset := by
  rw [Arena.readWord_of_le after offset (by omega), Arena.readWord_of_le before offset inside, same]

/-- A heap that agrees with a described heap is described by the same layout. -/
theorem Agree.describes (agree : left.Agree right)
    (describes : layout.Describes left.arena left.lists)
    (described : others.Describes right.arena right.lists) :
    layout.Describes right.arena right.lists := by
  obtain ⟨-, -, top, heads, views, walk, books⟩ := agree
  rw [blocks_of_describes describes] at walk
  cases walk
  have tiling := describes.tiling
  have words (entry : Entry) (member : entry ∈ layout.blocks) :=
    books (entry.view left.arena) (List.mem_map_of_mem member)
  have bounds (entry : Entry) (member : entry ∈ layout.blocks) :
      16 ≤ entry.size ∧ entry.offset + entry.size + 8 ≤ left.arena.hi :=
    ⟨tiling.real entry member, (tiling.bounds member).2⟩
  have blocks := describes.blocks_eq described top fun entry member => by
    have inside := bounds entry member
    exact word_of_readWord top (by omega) (words entry member).header
  -- The chains of the one heap are spelled out by the words of the other one too.
  have member_of {bucket : Bucket} {offset : Nat} (listed : offset ∈ layout.chains bucket) :=
    (describes.listing.members bucket offset).mp listed
  refine ⟨blocks ▸ described.tiling, fun bucket => ?_, fun bucket => ?_, describes.listing.nodup,
    describes.listing.members⟩
  · rw [heads, describes.listing.heads]
  · refine (describes.listing.links bucket).congr (fun offset listed => ?_)
      fun twoWay offset listed => ?_
    · obtain ⟨entry, member, free, rfl, -⟩ := member_of listed
      have inside := bounds entry member
      exact word_of_readWord top (by omega)
        ((words entry member).next ((entry.isFree_view left.arena).mpr free))
    · obtain ⟨entry, member, free, rfl, classified⟩ := member_of listed
      have inside := bounds entry member
      have large : 32 ≤ entry.size := by
        rw [← classified] at twoWay
        exact (Bucket.isTwoWay_classify entry.size).mp twoWay
      exact word_of_readWord top (by omega)
        ((words entry member).prev ((entry.isFree_view left.arena).mpr free) large)

namespace Twins

theorem views_eq (twins : Twins layout left right) {entry : Entry}
    (member : entry ∈ layout.blocks) :
    entry.view right.arena = entry.view left.arena :=
  entry.view_congr (twins.describes.links_of_free twins.otherDescribes member)

theorem blocks_eq (twins : Twins layout left right) : left.blocks = right.blocks := by
  rw [blocks_of_describes twins.describes, blocks_of_describes twins.otherDescribes]
  exact congrArg Except.ok (List.map_congr_left fun entry member => (twins.views_eq member).symm)

theorem members_eq (twins : Twins layout left right) (bucket : Bucket) :
    left.lists.members left.arena bucket = right.lists.members right.arena bucket := by
  rw [twins.describes.members, twins.otherDescribes.members]

theorem agree (twins : Twins layout left right) : left.Agree right := by
  refine ⟨twins.config, twins.capacity, twins.hi, fun bucket => ?_, _,
    blocks_of_describes twins.describes, fun view there => ?_⟩
  · rw [twins.describes.listing.heads, twins.otherDescribes.listing.heads]
  · obtain ⟨entry, member, rfl⟩ := List.mem_map.mp there
    have real := twins.describes.tiling.real entry member
    have bounds := (twins.describes.tiling.bounds member).2
    have stored := twins.describes.tiling.stored entry member
    have otherStored := twins.otherDescribes.tiling.stored entry member
    have top := twins.hi
    unfold Entry.stop at bounds
    have place : (entry.view left.arena).block.offset = entry.offset := rfl
    have width : (entry.view left.arena).size = entry.size := rfl
    -- A view is free when its entry is.
    have free_of (isFree : (entry.view left.arena).isFree = true) : entry.IsFree :=
      (entry.isFree_view left.arena).mp isFree
    constructor
    · exact readWord_congr top (by omega) (otherStored.header.trans stored.header.symm)
    · intro isFree
      have links := twins.describes.links_of_free twins.otherDescribes member (free_of isFree)
      exact readWord_congr top (by omega) links.1
    · intro isFree large
      have links := twins.describes.links_of_free twins.otherDescribes member (free_of isFree)
      exact readWord_congr top (by omega) (links.2 large)
    · intro isFree large
      have free := free_of isFree
      exact readWord_congr top (by omega)
        ((otherStored.footer free large).trans (stored.footer free large).symm)

end Twins

end Heap

/-! ## Runs in lockstep -/

/-- Two heaps that have agreed once and have since got the same calls, and each its own writes into
live payloads. -/
inductive Lockstep : Heap → List Address → Heap → List Address → Prop
  | start {left right : Heap} {live also : List Address} (reachable : Reachable left live)
      (otherReachable : Reachable right also) (alike : left.arena.GrowsLike right.arena)
      (agree : left.Agree right) : Lockstep left live right also
  | call {left right first second : Heap} {live also : List Address} {call : Call}
      {answer other : Except AllocError Address} (lockstep : Lockstep left live right also)
      (permitted : call.Permitted live) (decides : ¬call.IsWrite)
      (run : call.run left = .ok answer first) (otherRun : call.run right = .ok other second) :
      Lockstep first (call.liveAfter live answer) second (call.liveAfter also other)
  | write {left right first : Heap} {live also : List Address} {call : Call}
      {answer : Except AllocError Address} (lockstep : Lockstep left live right also)
      (writes : call.IsWrite) (target : call.target ∈ live)
      (run : call.run left = .ok answer first) : Lockstep first live right also
  | otherWrite {left right second : Heap} {live also : List Address} {call : Call}
      {answer : Except AllocError Address} (lockstep : Lockstep left live right also)
      (writes : call.IsWrite) (target : call.target ∈ also)
      (run : call.run right = .ok answer second) : Lockstep left live second also

section Runs

variable {left right first second : Heap} {live also : List Address} {call : Call}
  {answer : Except AllocError Address} {layout : Layout}

/-- A write leaves all addresses live. -/
theorem Reachable.write (reachable : Reachable left live) (writes : call.IsWrite)
    (target : call.target ∈ live) (run : call.run left = .ok answer first) :
    Reachable first live := by
  have list : call.liveAfter live answer = live := by
    cases call with
    | write | fill => rfl
    | allocate | zeroAllocate | resize | release | reset => exact writes.elim
  rw [← list]
  exact reachable.step (.inr target) run

theorem Heap.Twins.write_of_run (twins : Heap.Twins layout left right)
    (reachable : Reachable left live) (writes : call.IsWrite) (target : call.target ∈ live)
    (run : call.run left = .ok answer first) : Heap.Twins layout first right := by
  obtain ⟨offset, size, held, about⟩ :=
    (reachable.sound.members_iff twins.describes call.target).mp target
  exact twins.write held (writes_of_run twins.describes held writes about run)

theorem live_iff (twins : Heap.Twins layout left right) (reachable : Reachable left live)
    (otherReachable : Reachable right also) (address : Address) :
    address ∈ live ↔ address ∈ also := by
  rw [reachable.sound.members_iff twins.describes,
    otherReachable.sound.members_iff twins.otherDescribes]

/-- Heaps in lockstep are reachable, each for itself, and they are twins. The induction is on the
calls and writes that they have got. -/
theorem Lockstep.twins (lockstep : Lockstep left live right also) :
    Reachable left live ∧ Reachable right also ∧ ∃ layout, Heap.Twins layout left right := by
  induction lockstep with
  | start reachable otherReachable alike agree =>
    obtain ⟨roomy, -, layout, describes, -⟩ := reachable.sound
    obtain ⟨otherRoomy, -, others, described, -⟩ := otherReachable.sound
    exact ⟨reachable, otherReachable, layout, agree.config, agree.capacity, agree.hi, alike,
      roomy, otherRoomy, describes, agree.describes describes described⟩
  | @call left right first second live also call answer other _ permitted decides run otherRun ih =>
    obtain ⟨reachable, otherReachable, layout, twins⟩ := ih
    have members := reachable.sound.members_iff twins.describes
    have otherPermitted : call.Permitted also :=
      permitted.imp_right (live_iff twins reachable otherReachable call.target).mp
    refine ⟨reachable.step permitted run, otherReachable.step otherPermitted otherRun, ?_⟩
    rcases Call.tandem twins members permitted decides with
      ⟨result, one, two, runs, reruns, after⟩ | ⟨fault, one, two, fails, -⟩
    · cases run.symm.trans runs
      cases otherRun.symm.trans reruns
      exact after
    · cases run.symm.trans fails
  | write _ writes target run ih =>
    obtain ⟨reachable, otherReachable, layout, twins⟩ := ih
    exact ⟨reachable.write writes target run, otherReachable, layout,
      twins.write_of_run reachable writes target run⟩
  | otherWrite _ writes target run ih =>
    obtain ⟨reachable, otherReachable, layout, twins⟩ := ih
    exact ⟨reachable, otherReachable.write writes target run, layout,
      (twins.symm.write_of_run otherReachable writes target run).symm⟩

/-- Heaps in lockstep agree, show the same blocks and the same lists and have the same live
addresses, and they answer the next call alike. -/
theorem lockstep_agrees (lockstep : Lockstep left live right also) :
    left.Agree right ∧ left.blocks = right.blocks
      ∧ (∀ bucket, left.lists.members left.arena bucket = right.lists.members right.arena bucket)
      ∧ (∀ address, address ∈ live ↔ address ∈ also)
      ∧ ∀ call : Call, call.Permitted live → ¬call.IsWrite →
        (∃ answer first second,
            call.run left = .ok answer first ∧ call.run right = .ok answer second)
          ∨ ∃ fault first second,
            call.run left = .error fault first ∧ call.run right = .error fault second := by
  obtain ⟨reachable, otherReachable, layout, twins⟩ := lockstep.twins
  refine ⟨twins.agree, twins.blocks_eq, twins.members_eq, live_iff twins reachable otherReachable,
    fun call permitted decides => ?_⟩
  have members := reachable.sound.members_iff twins.describes
  refine (Call.tandem twins members permitted decides).imp_left ?_
  rintro ⟨answer, one, two, run, rerun, -⟩
  exact ⟨answer, one, two, run, rerun⟩

/-- A heap in a buffer and a heap in a mapping answer their first request alike. -/
theorem lockstep_agrees_of_backings : ∃ left right : Heap, Lockstep left [] right []
    ∧ left.arena.backing = .buffer ∧ right.arena.backing = .mapping ∧ ∃ address first second,
      Heap.allocate 100 left = .ok (.ok address) first
        ∧ Heap.allocate 100 right = .ok (.ok address) second := by
  obtain ⟨mapped, -, kind, size⟩ : ∃ arena,
      Arena.mapping (.below 1048576 4096 "no room") 65536 = .ok (.ok arena)
        ∧ arena.backing = .mapping ∧ arena.capacity = 65536 := ⟨_, rfl, rfl, rfl⟩
  have roomy : (Heap.unbuilt (.buffer 65536) {}).Roomy := by
    constructor <;> decide
  have otherRoomy : (Heap.unbuilt mapped {}).Roomy := by
    refine ⟨roomy.multiple, roomy.real, ?_, fun large => ?_⟩
    · change 16 + 4096 ≤ mapped.capacity
      omega
    · cases kind.symm.trans large.1
  obtain ⟨left, built, emptied⟩ := Heap.new_of_roomy rfl roomy
  obtain ⟨right, otherBuilt, otherEmptied⟩ := Heap.new_of_roomy rfl otherRoomy
  have small : (Heap.unbuilt (.buffer 65536) {}).arena.capacity ≤ Arena.bufferLimit := by decide
  obtain ⟨layout, twins⟩ := Heap.twins_of_emptied emptied otherEmptied rfl size (.inr small) roomy
    otherRoomy
  have leftKind : left.arena.backing = .buffer := emptied.backing
  have rightKind : right.arena.backing = .mapping := otherEmptied.backing.trans kind
  have lockstep : Lockstep left [] right [] := by
    refine .start (.built built) (.built otherBuilt) (.inr ?_) twins.agree
    rw [emptied.capacity]
    exact small
  have room : left.arena.hi + max (blockSize 100) left.config.chunkSize ≤ left.arena.capacity := by
    rw [emptied.top, emptied.config, emptied.capacity]
    decide
  obtain ⟨address, first, run, -⟩ := (Reachable.built built).allocate 100 (by decide) room (by
    rw [emptied.capacity]
    exact small)
  have permitted : (Call.allocate 100).Permitted [] := .inl rfl
  rcases (lockstep_agrees lockstep).2.2.2.2 (.allocate 100) permitted id with
    ⟨answer, one, two, runs, reruns⟩ | ⟨fault, one, two, fails, -⟩
  · cases run.symm.trans runs
    exact ⟨left, right, lockstep, leftKind, rightKind, address, first, two, run, reruns⟩
  · cases run.symm.trans fails

end Runs

end BoundaryTag
