import BoundaryTag.Proofs.Hosting
import BoundaryTag.Proofs.Isolation
import BoundaryTag.Proofs.Lockstep

/-!
# Released blocks

A released block leaves two things behind. Its bytes are part of a free block on some list, so a
request for no more than they held is met from there. And where its header stood there is from then
on the header or the backward link of a free block, or what is left of one of them; none of these
looks like the header of an allocated block, so a second release of the same payload is refused.
-/
namespace BoundaryTag

open Validator (Entry)

variable {heap after released : Heap} {live rest : List Address} {address : Address}

/-! ## Room -/

/-- A request is met, in an arena that does not grow. -/
def Heap.Accommodates (heap : Heap) (size : Nat) : Prop :=
  ∃ address after, Heap.allocate size heap = .ok (.ok address) after ∧ address.isNull = false
    ∧ after.arena.hi = heap.arena.hi

/-- The block that a free block has become part of is at least as large. -/
theorem Joined.offers {arena later : Arena} {fore aft blocks : List Entry} {block : Entry}
    (joined : Joined fore block (aft ++ [arena.epilogue]) (blocks ++ [later.epilogue]))
    (closed : ¬later.epilogue.IsFree) : Offers blocks block.size := by
  obtain ⟨left, before, behind, next, right, -, -, -, -, joint, row⟩ := joined
  have free : (merged before block next).IsFree := rfl
  have listed : merged before block next ∈ blocks ++ [later.epilogue] := by simp [row]
  refine ⟨merged before block next, (mem_iff_of_last_taken closed free).mp listed, free, ?_⟩
  rw [size_merged joint]
  omega

theorem Heap.accommodates_of_offers {layout : Layout} {size width : Nat}
    (describes : layout.Describes heap.arena heap.lists) (offers : Offers layout.blocks width)
    (positive : 1 ≤ size) (fits : blockSize size ≤ width) : heap.Accommodates size := by
  obtain ⟨entry, member, free, wide⟩ := offers
  have bounds := describes.tiling.bounds member
  have limit := heap.arena.hi_lt
  have small := blockSize_bounds size
  have adjustable : size ≤ wordLimit - 1 - 24 := by
    unfold Entry.stop at bounds
    omega
  obtain ⟨_, after, run, offset, rfl, same, -⟩ := allocate_of_offers describes positive adjustable
    ⟨entry, member, free, fits.trans wide⟩
  exact ⟨_, after, run, Address.isNull_payload offset, same⟩

/-- What a payload held can be asked for again once it has been released, even where the arena has
no room to grow, and however few candidates a search looks at. -/
theorem release_accommodates {size width : Nat} (reachable : Reachable heap live)
    (member : address ∈ live) (usable : heap.usableSize address = .ok width)
    (positive : 1 ≤ size) (fits : size ≤ width) :
    ∃ released, Heap.release address heap = .ok () released
      ∧ released.arena.hi = heap.arena.hi ∧ released.Accommodates size
      ∧ ∀ candidates, 1 ≤ candidates →
        Heap.Accommodates { released with config.fitCandidates := candidates } size := by
  obtain ⟨-, -, layout, describes, members⟩ := reachable.sound
  obtain ⟨_, _, held, rfl⟩ := (members address).mp member
  cases (Heap.usableSize_of_held describes held).symm.trans usable
  obtain ⟨entry, present, allocated, rfl, rfl⟩ := held
  obtain ⟨fore, aft, split⟩ := List.append_of_mem present
  obtain ⟨⟨⟩, released, run, others, described, -, -, joined, frees, -⟩ :=
    Heap.release_returns describes split allocated
  obtain ⟨-, closed⟩ := Entry.of_sentinel described.tiling.epilogue
  have offers : Offers others.blocks entry.size := joined.offers closed
  -- The block of a payload is the least one that holds the payload, so it holds a smaller one too.
  have large : blockSize size ≤ entry.size := by
    have multiple := entry.size_mod
    unfold blockSize
    omega
  exact ⟨released, run, frees.confined.hi,
    Heap.accommodates_of_offers described offers positive large,
    fun _ _ => Heap.accommodates_of_offers described offers positive large⟩

/-- One of two payloads is released, and all of it is asked for again. -/
theorem release_accommodates_of_two : ∃ (heap released : Heap) (first second : Address)
    (width : Nat), Reachable heap [second, first] ∧ heap.usableSize first = .ok width ∧ 1 ≤ width
      ∧ Heap.release first heap = .ok () released ∧ released.Accommodates width := by
  obtain ⟨-, -, heap, first, second, -, -, -, -, -, reachable⟩ := exists_run
  have member : first ∈ [second, first] := by simp
  obtain ⟨-, -, layout, describes, members⟩ := reachable.sound
  obtain ⟨offset, size, held, rfl⟩ := (members first).mp member
  have usable := Heap.usableSize_of_held describes held
  have positive : 1 ≤ size - 8 := by
    have bounds := describes.held_bounds held
    omega
  obtain ⟨released, run, -, accommodates, -⟩ :=
    release_accommodates reachable member usable positive (Nat.le_refl _)
  exact ⟨heap, released, _, second, size - 8, reachable, usable, positive, run, accommodates⟩

/-! ## Second releases -/

/-- The call gives a payload back or writes into one. -/
def Call.Drains : Call → Prop
  | release _ | write _ _ _ | fill _ _ => True
  | _ => False

/-- A run that hands out no memory: payloads that are live are released and written to. -/
inductive Drained (heap : Heap) (live : List Address) : Heap → List Address → Prop
  | refl : Drained heap live heap live
  | step {middle after : Heap} {others : List Address} {call : Call}
      {answer : Except AllocError Address} (drained : Drained heap live middle others)
      (member : call.target ∈ others) (drains : call.Drains)
      (run : call.run middle = .ok answer after) :
      Drained heap live after (call.liveAfter others answer)

/-- The word at an offset lies in no payload and is not the header of an allocated block. -/
structure Vacant (heap : Heap) (offset : Nat) : Prop where
  place : offset % 16 = 8
  inside : offset + 8 ≤ heap.arena.hi
  idle : heap.arena.Idle offset
  outside : ∃ layout : Layout, layout.Describes heap.arena heap.lists
    ∧ ∀ position, Span offset (offset + 8) position → Outside layout.blocks position

namespace Vacant

variable {offset : Nat}

/-- A release leaves no allocated block where the header of the payload stood. -/
theorem of_release {size : Nat} {layout : Layout}
    (describes : layout.Describes heap.arena heap.lists) (held : Held layout.blocks offset size) :
    Returns (Heap.release ⟨offset + 8⟩) heap fun _ after => Vacant after offset := by
  obtain ⟨entry, member, allocated, rfl, rfl⟩ := held
  obtain ⟨fore, aft, split⟩ := List.append_of_mem member
  refine (Heap.release_returns describes split allocated).mono ?_
  rintro ⟨⟩ after ⟨others, described, held, -, -, frees, idle⟩
  have bounds := describes.tiling.bounds member
  refine ⟨describes.tiling.offset_mod member, ?_, idle, others, described, ?_⟩
  · rw [frees.confined.hi]
    unfold Entry.stop at bounds
    omega
  · -- The header lies in no payload, and those that are left were payloads before.
    intro position header
    have outside : Outside layout.blocks position := fun other there payload =>
      describes.not_tag_of_payload there member payload (.inl header)
    exact outside.of_held fun place width holds => ((held place width).mp holds).1

/-- The release of another payload writes headers of free blocks and links of listed ones only. -/
theorem release {target : Address} (vacant : Vacant heap offset) (sound : Sound heap live)
    (member : target ∈ live) (run : Heap.release target heap = .ok () after) :
    Vacant after offset := by
  obtain ⟨place, inside, idle, layout, describes, outside⟩ := vacant
  obtain ⟨_, _, ⟨entry, present, allocated, rfl, rfl⟩, rfl⟩ :=
    (sound.members_iff describes target).mp member
  obtain ⟨fore, aft, split⟩ := List.append_of_mem present
  obtain ⟨others, described, held, -, -, frees, -⟩ :=
    (Heap.release_returns describes split allocated).of_run run
  refine ⟨place, ?_, frees.idle offset place idle, others, described, ?_⟩
  · rw [frees.confined.hi]
    exact inside
  · exact fun position within => (outside position within).of_held fun start width holds =>
      ((held start width).mp holds).1

/-- A write stays inside a payload. -/
theorem write {call : Call} {answer : Except AllocError Address} (vacant : Vacant heap offset)
    (sound : Sound heap live) (member : call.target ∈ live) (write : call.IsWrite)
    (run : call.run heap = .ok answer after) : Vacant after offset := by
  obtain ⟨place, inside, idle, layout, describes, outside⟩ := vacant
  obtain ⟨start, size, held, about⟩ := (sound.members_iff describes call.target).mp member
  have writes := writes_of_run describes held write about run
  refine ⟨place, ?_, idle.confined writes.confined ?_, layout, writes.describes describes held,
    outside⟩
  · rw [writes.confined.hi]
    exact inside
  · -- The payload written to does not reach the word.
    obtain ⟨entry, present, allocated, rfl, rfl⟩ := held
    exact fun position within payload => outside position within entry present ⟨allocated, payload⟩

theorem step {call : Call} {answer : Except AllocError Address} (vacant : Vacant heap offset)
    (sound : Sound heap live) (member : call.target ∈ live) (drains : call.Drains)
    (run : call.run heap = .ok answer after) : Vacant after offset := by
  cases call with
  | release target =>
    obtain ⟨_, middle, first, rest⟩ := exists_of_bind run
    cases rest
    exact vacant.release sound member first
  | write => exact vacant.write sound member trivial run
  | fill => exact vacant.write sound member trivial run
  | allocate | zeroAllocate | resize | reset => exact drains.elim

theorem run (drained : Drained released live after rest) (sound : Sound released live)
    (vacant : Vacant released offset) : Sound after rest ∧ Vacant after offset := by
  -- What is live at each step is what the step may name, so the invariant of a run comes along.
  induction drained with
  | refl => exact ⟨sound, vacant⟩
  | step _ member drains run ih =>
    obtain ⟨settled, kept⟩ := ih
    exact ⟨(effect_of_run settled (.inr member) run).sound, kept.step settled member drains run⟩

/-- What would be released has been released already. -/
theorem release_fails (vacant : Vacant heap offset) :
    Heap.release ⟨offset + 8⟩ heap = .error (.releaseOfFree (offset + 8)) heap := by
  obtain ⟨-, inside, idle, layout, describes, -⟩ := vacant
  have header :
      (Block.mk offset).header heap.arena = .ok (Header.ofWord (heap.arena.word offset)) := by
    rw [Block.header, Arena.readWord_of_le heap.arena offset inside]
    rfl
  have verified := Heap.verify_of_wellFormed heap .beforeRelease ⟨layout, describes⟩
  -- The word may be anything but the header of an allocated block, and its lowest bit tells so.
  have refuses : ensure (Header.ofWord (heap.arena.word offset)).allocated
      (.releaseOfFree (offset + 8)) = .error (.releaseOfFree (offset + 8)) := by
    rw [idle]
    rfl
  unfold Heap.release
  rw [Address.isNull_payload, if_neg Bool.false_ne_true, bind_of_ok (reading_of_ok verified),
    bind_of_ok (lift_of_ok (Block.ofPayload_add offset)),
    bind_of_ok (Heap.readArena_of_ok header)]
  exact bind_of_error (lift_of_error refuses)

end Vacant

/-- The validator passes, the header word of the payload is not that of an allocated block, and a
release of the payload is refused in a heap that stays as it is. -/
structure RefusesRelease (address : Address) (heap : Heap) : Prop where
  valid : heap.validate = .ok (.ok ())
  clear : ∃ word, heap.arena.readWord (address.offset - 8) = .ok word ∧ word.testBit 0 = false
  refused : Heap.release address heap = .error (.releaseOfFree address.offset) heap

/-- A payload that has been released cannot be released again, whatever else has been released and
written to since, as long as no memory has been handed out. -/
theorem release_twice (reachable : Reachable heap live) (member : address ∈ live) :
    ∃ released, Heap.release address heap = .ok () released
      ∧ ∀ after rest, Drained released (live.erase address) after rest →
        RefusesRelease address after := by
  have sound := reachable.sound
  obtain ⟨layout, describes, members⟩ := sound.layout
  obtain ⟨offset, size, held, rfl⟩ := (members address).mp member
  obtain ⟨⟨⟩, released, run, vacant⟩ := Vacant.of_release describes held
  refine ⟨released, run, fun after rest drained => ?_⟩
  have call : (Call.release ⟨offset + 8⟩).run heap = .ok (.ok .null) released := bind_of_ok run
  have permitted : (Call.release ⟨offset + 8⟩).Permitted live := .inr member
  have again : Sound released (live.erase ⟨offset + 8⟩) :=
    (effect_of_run sound permitted call).sound
  obtain ⟨settled, vacant⟩ := Vacant.run drained again vacant
  exact ⟨validate_of_wellFormed settled.wellFormed,
    ⟨_, Arena.readWord_of_le after.arena offset vacant.inside, vacant.idle⟩, vacant.release_fails⟩

/-- Two payloads are released, and then the first one again. -/
theorem release_twice_of_two : ∃ (heap released after : Heap) (first second : Address),
    Reachable heap [second, first] ∧ Heap.release first heap = .ok () released
      ∧ Heap.release second released = .ok () after ∧ RefusesRelease first after := by
  obtain ⟨-, -, heap, first, second, -, -, -, -, -, reachable⟩ := exists_run
  have member : first ∈ [second, first] := by simp
  obtain ⟨released, run, refuses⟩ := release_twice reachable member
  have call : (Call.release first).run heap = .ok (.ok .null) released := bind_of_ok run
  have permitted : (Call.release first).Permitted [second, first] := .inr member
  have further := reachable.step permitted call
  have left : second ∈ [second, first].erase first := by
    have different := (List.nodup_cons.mp reachable.sound.nodup).1
    exact (reachable.sound.nodup.mem_erase_iff).mpr ⟨by simpa using different, by simp⟩
  obtain ⟨⟨⟩, after, again, -⟩ := further.sound.release (.inr left)
  have last : (Call.release second).run released = .ok (.ok .null) after := bind_of_ok again
  have drained : Drained released ([second, first].erase first) after _ :=
    .step .refl (show (Call.release second).target ∈ _ from left) trivial last
  exact ⟨heap, released, after, first, second, reachable, run, again, refuses after _ drained⟩

end BoundaryTag
