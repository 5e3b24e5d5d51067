import BoundaryTag.CommandLine.Session
import BoundaryTag.Proofs.Dumps
import BoundaryTag.Proofs.Hosting
import Mathlib.Data.List.Nodup
import Mathlib.Logic.Function.Basic

/-!
# Replays

Which payloads a trace leaves, and of which sizes, can be told from its requests alone. A replay
that comes to its end leaves one block for each of them that has bytes, next to the blocks that were
there before. On the way no payload is ever found overwritten or misaligned, so a replay can only
end early because of what the trace asks for. The proof follows the requests one by one: each of
them is about one payload, which is brought to the front of those that the heap hosts.
-/
namespace BoundaryTag

open Replay

/-! ## What a trace leaves -/

/-- How many bytes a request asks for. -/
def Request.size : Request → Nat
  | allocate _ size | resize _ size => size
  | release _ => 0

/-- The sizes of the live payloads after a request, by number. -/
def Request.settle (sizes : Nat → Option Nat) : Request → Nat → Option Nat
  | allocate id size => Function.update sizes id (some size)
  | resize id size => Function.update sizes id (if size = 0 then none else some size)
  | release id => Function.update sizes id none

/-- The sizes of the payloads that are live after all requests, by number. -/
def Trace.sizes (trace : Trace) : Nat → Option Nat :=
  trace.foldl Request.settle fun _ => none

/-- The allocated blocks after a replay are those from before and a new one, at a home of its own,
for each number that is still live with bytes. -/
structure Trace.Houses (trace : Trace) (home : Nat → Address) (before after : Heap) : Prop where
  blocks : ∀ address width, after.Allocates address width ↔ before.Allocates address width
    ∨ ∃ id size, trace.sizes id = some size ∧ 0 < size ∧ address = home id ∧ width = blockSize size
  new : ∀ id size, trace.sizes id = some size → 0 < size →
    ∀ width, ¬before.Allocates (home id) width
  apart : ∀ id other size width, trace.sizes id = some size → 0 < size →
    trace.sizes other = some width → 0 < width → home id = home other → id = other

/-- What can be relied on when a replay ends, in whichever way. -/
structure Trace.Replayed (trace : Trace) (live : List Address) (before after : Heap)
    (result : Except ReplayError Report) : Prop where
  /-- The replay has not found anything wrong with a payload. -/
  undamaged : ∀ operation id, result ≠ .error (.corrupted operation id)
    ∧ result ≠ .error (.misaligned operation id)
  valid : after.validate = .ok (.ok ())
  /-- The payloads that were live before are as they were. -/
  spared : ∀ address ∈ live, ∃ bytes,
    before.payload address = .ok bytes ∧ after.payload address = .ok bytes
  housed : ∀ report, result = .ok report → ∃ home : Nat → Address, trace.Houses home before after

/-- The replay has found something wrong with a payload. -/
def ReplayError.FindsDamage : ReplayError → Prop
  | corrupted _ _ | misaligned _ _ => True
  | unknownId _ _ | liveId _ _ | alloc _ _ => False

/-! ## The payload that a request is about -/

namespace Progress

variable {progress : Progress} {payload : LivePayload} {id : Nat}

/-- The payload of a number; if there is none, an empty one. -/
def entry (progress : Progress) (id : Nat) : LivePayload :=
  (progress.find? id).getD ⟨id, .null, 0⟩

theorem find?_forget (progress : Progress) {id other : Nat} (different : other ≠ id) :
    (progress.forget id).find? other = progress.find? other := by
  simp only [find?, forget, List.find?_filter]
  congr 1
  funext payload
  by_cases same : payload.id = other
  · simp [same, different]
  · simp [same]

theorem find?_forget_self (progress : Progress) (id : Nat) :
    (progress.forget id).find? id = none := by
  simp [find?, forget]

theorem not_mem_of_none (absent : progress.find? id = none) : id ∉ progress.live.map (·.id) := by
  intro member
  obtain ⟨payload, there, same⟩ := List.mem_map.mp member
  simpa [same] using List.find?_eq_none.mp absent payload there

theorem forget_of_none (absent : progress.find? id = none) : progress.forget id = progress := by
  have kept : progress.live.filter (·.id != id) = progress.live :=
    List.filter_eq_self.mpr fun payload member => by
      simpa using List.find?_eq_none.mp absent payload member
  rw [forget, kept]

/-- A payload that has been found is live next to those that are left without it. -/
theorem perm_of_find (numbered : (progress.live.map (·.id)).Nodup)
    (found : progress.find? id = some payload) :
    payload.id = id ∧ progress.live.Perm (payload :: (progress.forget id).live) := by
  have same : payload.id = id := by simpa using List.find?_some found
  have whole := List.perm_cons_erase (List.mem_of_find?_eq_some found)
  refine ⟨same, ?_⟩
  have fresh : payload.id ∉ (progress.live.erase payload).map (·.id) :=
    (List.nodup_cons.mp ((whole.map (·.id)).nodup_iff.mp numbered)).1
  -- Numbers are used once, so forgetting the number takes this payload and no other.
  have others : (progress.live.erase payload).filter (·.id != id) = progress.live.erase payload :=
    List.filter_eq_self.mpr fun other member => by
      simp only [bne_iff_ne, ne_eq]
      rintro rfl
      rw [same] at fresh
      exact fresh (List.mem_map_of_mem member)
  have left := whole.filter (·.id != id)
  rw [List.filter_cons_of_neg (by simp [same]), others] at left
  exact whole.trans (left.symm.cons payload)

/-- What is left without the payload of a number. -/
def without (progress : Progress) (id : Nat) : Progress :=
  { progress.forget id with current := total (progress.forget id).live }

/-- The bytes of a payload that is forgotten have been counted. -/
theorem discount_forget {size : Nat}
    (counted : progress.current = size + total (progress.forget id).live) :
    (progress.forget id).discount size = .ok (progress.without id) := by
  have current : (progress.forget id).current = progress.current := rfl
  have enough : subWord (progress.forget id).current size =
      .ok (total (progress.forget id).live) := by
    rw [current, subWord_of_le _ _ (by omega), counted, Nat.add_sub_cancel_left]
  rw [discount, except_bind_of_ok enough]
  rfl

theorem find?_of_mem (numbered : (progress.live.map (·.id)).Nodup)
    (member : payload ∈ progress.live) :
    progress.find? payload.id = some payload := by
  cases found : progress.find? payload.id with
  | none => simpa using List.find?_eq_none.mp found payload member
  | some other =>
    have same : other.id = payload.id := by simpa using List.find?_some found
    have there := List.mem_of_find?_eq_some found
    rw [List.inj_on_of_nodup_map numbered there member same]

end Progress

namespace Replay

variable {start heap after : Heap} {kept : List Address} {sizes : Nat → Option Nat}
  {progress : Progress} {id size operation : Nat}

/-! ## One request -/

/-- What a replay keeps track of agrees with the heap and with the requests so far. -/
structure Follows (start : Heap) (kept : List Address) (sizes : Nat → Option Nat)
    (progress : Progress) (heap : Heap) : Prop where
  hosts : Hosts start kept .null progress.live heap
  counted : progress.current = total progress.live
  sizes : ∀ id, (progress.find? id).map (·.size) = sizes id

/-- A replay goes on in agreement, or it stops without damage. -/
def Ends (start : Heap) (kept : List Address) (sizes : Nat → Option Nat) :
    Except ReplayError Progress → Heap → Prop
  | .ok progress, heap => Follows start kept sizes progress heap
  | .error error, heap =>
    ¬error.FindsDamage ∧ ∃ payloads, Hosts start kept .null payloads heap

/-- A part of a replay ends, unless one of the sizes asked for halts the heap. -/
def Plays (start : Heap) (asked : Nat → Prop) {Result : Type} (action : HeapM Result) (heap : Heap)
    (post : Result → Heap → Prop) : Prop :=
  Returns action heap post ∨ ∃ fault stopped, action heap = .error fault stopped
    ∧ stopped.arena.capacity = start.arena.capacity
    ∧ ∃ size, asked size ∧ Heap.Halts size stopped fault

/-- The payload of a number can be brought to the front. -/
theorem Follows.focus (follows : Follows start kept sizes progress heap) (id : Nat) :
    Hosts start kept .null (progress.entry id :: (progress.forget id).live) heap
      ∧ (progress.entry id).id = id
      ∧ progress.current = (progress.entry id).size + total (progress.forget id).live := by
  obtain ⟨hosts, counted, -⟩ := follows
  unfold Progress.entry
  cases found : progress.find? id with
  | none =>
    rw [Progress.forget_of_none found]
    exact ⟨hosts.cons_empty (Progress.not_mem_of_none found), rfl, by simpa using counted⟩
  | some payload =>
    obtain ⟨same, perm⟩ := Progress.perm_of_find hosts.numbered found
    refine ⟨hosts.perm perm, same, ?_⟩
    rw [counted, total, (perm.map _).sum_eq]
    simp [total]

/-- A payload whose number is not in use is filled and counted in. -/
theorem settle_returns (progress : Progress) {new : Address}
    (hosts : Hosts start kept new progress.live heap)
    (fits : RoomFor heap new size) (counted : progress.current = total progress.live)
    (absent : progress.find? id = none)
    (others : ∀ other, other ≠ id → (progress.find? other).map (·.size) = sizes other) :
    Returns (do
        fill ⟨id, new, size⟩
        return .ok (← progress.add ⟨id, new, size⟩) : HeapM (Except ReplayError Progress)) heap
      fun result after => ∃ next, result = .ok next
        ∧ Follows start kept (Function.update sizes id (some size)) next after := by
  refine (hosts.fill_returns fits (Progress.not_mem_of_none absent)).bind ?_
  rintro ⟨⟩ after filled
  have sum : total (⟨id, new, size⟩ :: progress.live) = progress.current + size := by
    rw [counted, total, total, List.map_cons, List.sum_cons, Nat.add_comm]
  -- The count cannot overflow, because the payloads lie side by side in the arena.
  have limit := filled.total_lt
  rw [sum] at limit
  have added : progress.add ⟨id, new, size⟩ = .ok { progress with
      live := ⟨id, new, size⟩ :: progress.live
      current := progress.current + size } := by
    rw [Progress.add, except_bind_of_ok (addWord_of_lt _ _ limit)]
    rfl
  refine Returns.step (lift_of_ok added) (Returns.pure ⟨_, rfl, filled, sum.symm, fun other => ?_⟩)
  by_cases same : other = id
  · simp [Progress.find?, same]
  · rw [Function.update_of_ne same, ← others other same]
    simp [Progress.find?, Ne.symm same]

/-- The peak is not a matter of the heap. -/
theorem Follows.mark (follows : Follows start kept sizes progress heap) :
    Follows start kept sizes progress.mark heap :=
  ⟨follows.hosts, follows.counted, follows.sizes⟩

/-- The other payloads keep their sizes when one is forgotten. -/
theorem Follows.others (follows : Follows start kept sizes progress heap) {other : Nat}
    (different : other ≠ id) : ((progress.forget id).find? other).map (·.size) = sizes other := by
  rw [Progress.find?_forget progress different, follows.sizes]

/-- A payload that is given up is no longer counted, and the sizes say so. -/
theorem Follows.forgotten (follows : Follows start kept sizes progress heap)
    (hosts : Hosts start kept .null (progress.forget id).live after) :
    Follows start kept (Function.update sizes id none) (progress.without id) after := by
  refine ⟨hosts, rfl, fun other => ?_⟩
  by_cases same : other = id
  · subst same
    rw [Function.update_self]
    exact congrArg (Option.map _) (progress.find?_forget_self other)
  · rw [Function.update_of_ne same]
    exact follows.others same

/-- A payload that the heap has room for is hosted from then on. -/
theorem allocate_returns {new : Address} (follows : Follows start kept sizes progress heap)
    (absent : progress.find? id = none) (run : Heap.allocate size heap = .ok (.ok new) after) :
    Returns (allocate operation id size progress) heap fun result last => ∃ next,
      result = .ok next ∧ Follows start kept (Function.update sizes id (some size)) next last := by
  obtain ⟨hosts, counted, known⟩ := follows
  have permitted : (Call.allocate size).Permitted (addresses progress.live ++ kept) := .inl rfl
  have effect := effect_of_run hosts.sound permitted run
  -- The allocation is about an empty payload of that number.
  have whole := hosts.cons_empty (Progress.not_mem_of_none absent)
  have same := List.erase_of_not_mem whole.sound.not_null
  have later := whole.call_returns effect rfl nofun (congrArg (Call.handOut · new) same).symm
  have fits : RoomFor after new size := ⟨hosts.sound.isNull_of_allocate run,
    fun present => (effect.granted new rfl present).2.2⟩
  unfold Replay.allocate
  rw [absent]
  refine Returns.step run ?_
  simp only [later.aligned, Bool.not_true, Bool.false_eq_true, if_false]
  exact settle_returns progress later fits counted absent fun other _ => known other

/-- Once the heap has answered, in whichever way, the request ends in agreement. -/
theorem allocate_ends {answer : Except AllocError Address}
    (follows : Follows start kept sizes progress heap) (operation : Nat)
    (absent : progress.find? id = none) (run : Heap.allocate size heap = .ok answer after) :
    Returns (allocate operation id size progress) heap
      (Ends start kept ((Request.allocate id size).settle sizes)) := by
  cases answer with
  | error source =>
    have permitted : (Call.allocate size).Permitted (addresses progress.live ++ kept) := .inl rfl
    have effect := effect_of_run follows.hosts.sound permitted run
    unfold Replay.allocate
    rw [absent]
    -- A refusal leaves the heap as it was.
    refine Returns.step run (Returns.pure ⟨not_false, progress.live, ?_⟩)
    exact follows.hosts.unchanged (effect.refused source rfl).2
  | ok new =>
    refine (allocate_returns follows absent run).mono ?_
    rintro _ after ⟨next, rfl, settled⟩
    exact settled

theorem allocate_of_error {fault : Fault} {stopped : Heap} (operation : Nat)
    (absent : progress.find? id = none) (fails : Heap.allocate size heap = .error fault stopped) :
    allocate operation id size progress heap = .error fault stopped := by
  unfold Replay.allocate
  rw [absent]
  exact bind_of_error fails

theorem allocate_plays (follows : Follows start kept sizes progress heap)
    (operation id size : Nat) :
    Plays start (· = size) (allocate operation id size progress) heap
      (Ends start kept ((Request.allocate id size).settle sizes)) := by
  cases found : progress.find? id with
  | some payload =>
    unfold Replay.allocate
    rw [found]
    exact .inl (Returns.pure ⟨not_false, _, follows.hosts⟩)
  | none =>
    have hosts := follows.hosts
    have permitted : (Call.allocate size).Permitted (addresses progress.live ++ kept) := .inl rfl
    rcases answers_of_sound hosts.sound permitted with
      ⟨answer, middle, run, -⟩ | ⟨fault, fails, halts⟩
    · exact .inl (allocate_ends follows operation found run)
    · have stops := allocate_of_error operation found fails
      exact .inr ⟨fault, heap, stops, hosts.capacity, size, rfl, halts⟩

/-- The heap is asked for another size of a payload once that has been found intact. -/
theorem resize_ends {answer : Except AllocError Address}
    (follows : Follows start kept sizes progress heap) (operation : Nat)
    (run : Heap.resize (progress.entry id).address size heap = .ok answer after) :
    Returns (resize operation id size progress) heap
      (Ends start kept ((Request.resize id size).settle sizes)) := by
  obtain ⟨hosts, number, counted⟩ := follows.focus id
  -- A number without a payload counts as an empty payload at the null address.
  have checked := (hosts.holds _ List.mem_cons_self).isIntact
  have permitted : (Call.resize (progress.entry id).address size).Permitted
      (addresses (progress.entry id :: (progress.forget id).live) ++ kept) := null_or_mem _ _ _
  have effect := effect_of_run hosts.sound permitted run
  unfold Replay.resize
  refine Returns.step (reading_of_ok checked) ?_
  simp only [Bool.not_true, Bool.false_eq_true, if_false]
  refine Returns.step run ?_
  cases answer with
  | error source =>
    exact Returns.pure ⟨not_false, _, hosts.unchanged (effect.refused source rfl).2⟩
  | ok new =>
    have later := hosts.call_returns effect rfl nofun rfl
    have null := hosts.sound.isNull_of_resize permitted run
    have fits : RoomFor after new size := ⟨null, fun present =>
      (effect.granted new rfl present).2.2⟩
    -- From here on the old payload is gone, from the heap as from the account.
    refine Returns.step (lift_of_ok (Progress.discount_forget counted)) ?_
    cases empty : new.isNull with
    | true =>
      obtain rfl : new = .null := Address.eq_null empty
      obtain rfl : size = 0 := null.mp empty
      exact Returns.pure (follows.forgotten later)
    | false =>
      have nonzero : size ≠ 0 := fun zero => by simp [null.mpr zero] at empty
      have moved := hosts.moved run later (Nat.pos_of_ne_zero nonzero) empty
      rw [number] at moved
      simp only [later.aligned, Bool.not_true, Bool.false_eq_true, if_false]
      refine Returns.step (reading_of_ok moved) ?_
      simp only [Bool.not_true, Bool.false_eq_true, if_false, Request.settle, if_neg nonzero]
      refine (settle_returns (progress.without id) later fits rfl (progress.find?_forget_self id)
        fun other => follows.others).mono ?_
      rintro _ after ⟨next, rfl, settled⟩
      exact settled

/-- A payload that is to be resized is intact, so the heap is the next to be asked. -/
theorem resize_of_error {fault : Fault} {stopped : Heap}
    (follows : Follows start kept sizes progress heap) (operation : Nat)
    (fails : Heap.resize (progress.entry id).address size heap = .error fault stopped) :
    resize operation id size progress heap = .error fault stopped := by
  have checked := ((follows.focus id).1.holds _ List.mem_cons_self).isIntact
  exact (bind_of_ok (reading_of_ok checked)).trans (bind_of_error fails)

theorem resize_plays (follows : Follows start kept sizes progress heap) (operation id size : Nat) :
    Plays start (· = size) (resize operation id size progress) heap
      (Ends start kept ((Request.resize id size).settle sizes)) := by
  have hosts := (follows.focus id).1
  have permitted : (Call.resize (progress.entry id).address size).Permitted
      (addresses (progress.entry id :: (progress.forget id).live) ++ kept) := null_or_mem _ _ _
  rcases answers_of_sound hosts.sound permitted with
    ⟨answer, middle, run, -⟩ | ⟨fault, fails, halts⟩
  · exact .inl (resize_ends follows operation run)
  · have stops := resize_of_error follows operation fails
    exact .inr ⟨fault, heap, stops, hosts.capacity, size, rfl, halts⟩

/-- The heap takes back every payload of a replay. -/
theorem release_ends (follows : Follows start kept sizes progress heap) (operation id : Nat) :
    Returns (release operation id progress) heap
      (Ends start kept ((Request.release id).settle sizes)) := by
  obtain ⟨hosts, number, counted⟩ := follows.focus id
  unfold Progress.entry at hosts number counted
  unfold Replay.release
  cases found : progress.find? id with
  | none => exact Returns.pure ⟨not_false, _, follows.hosts⟩
  | some old =>
    simp only [found, Option.getD_some] at hosts number counted
    have checked := (hosts.holds old List.mem_cons_self).intact
    rw [number] at checked
    refine Returns.step (reading_of_ok checked) ?_
    simp only [Bool.not_true, Bool.false_eq_true, if_false]
    refine (Sound.release hosts.sound (null_or_mem _ _ _)).bind ?_
    rintro ⟨⟩ middle effect
    -- No address is handed out in its place.
    have later := hosts.call_returns effect rfl nofun rfl
    refine Returns.step (lift_of_ok (Progress.discount_forget counted)) (Returns.pure ?_)
    exact follows.forgotten later

/-- One request, whichever it is. -/
theorem step_plays (follows : Follows start kept sizes progress heap) (operation : Nat)
    (request : Request) :
    Plays start (· = request.size) (step operation request progress) heap
      (Ends start kept (request.settle sizes)) := by
  cases request with
  | allocate id size => exact allocate_plays follows operation id size
  | resize id size => exact resize_plays follows operation id size
  | release id => exact .inl (release_ends follows operation id)

/-! ## All requests -/

theorem steps_plays (follows : Follows start kept sizes progress heap) (operation : Nat)
    (requests : List Request) :
    Plays start (fun size => ∃ request ∈ requests, size = request.size)
      (steps operation requests progress) heap
      (Ends start kept (requests.foldl Request.settle sizes)) := by
  -- The induction is on the requests still to come. After each of them the replay follows the heap,
  -- which is what the next one starts from.
  induction requests generalizing operation sizes progress heap with
  | nil => exact .inl (Returns.pure follows)
  | cons request rest ih =>
    unfold steps
    rcases step_plays follows operation request with
      ⟨result, middle, run, ends⟩ | ⟨fault, stopped, fails, capacity, size, asked, halts⟩
    · cases result with
      | error error => exact .inl (Returns.step run (Returns.pure ends))
      | ok next =>
        rcases ih (Follows.mark ends) (operation + 1) with
          returns | ⟨fault, stopped, fails, capacity, size, ⟨later, member, asked⟩, halts⟩
        · exact .inl (Returns.step run returns)
        · exact .inr ⟨fault, stopped, (bind_of_ok run).trans fails, capacity, size,
            ⟨later, List.mem_cons_of_mem _ member, asked⟩, halts⟩
    · exact .inr ⟨fault, stopped, bind_of_error fails, capacity, size,
        ⟨request, List.mem_cons_self, asked⟩, halts⟩

theorem follows_start {live : List Address} (sound : Sound heap live) :
    Follows heap live (fun _ => none) .start heap :=
  ⟨⟨sound, List.nodup_nil, nofun, fun _ _ => rfl, rfl⟩, rfl, fun _ => rfl⟩

/-- What is left at the end of a replay, before it is put into words of the heap alone. -/
theorem replay_plays {live : List Address} (sound : Sound heap live) (trace : Trace) :
    Plays heap (fun size => ∃ request ∈ trace, size = request.size) trace.replay heap
      fun result after => (∀ error, result = .error error → ¬error.FindsDamage)
        ∧ (∃ payloads, Hosts heap live .null payloads after)
        ∧ ∀ report, result = .ok report →
          ∃ progress, Follows heap live trace.sizes progress after := by
  unfold Trace.replay
  rcases steps_plays (follows_start sound) 0 trace with
    ⟨result, middle, run, ends⟩ | ⟨fault, stopped, fails, capacity, asked⟩
  · left
    refine Returns.step run ?_
    cases result with
    | error error =>
      refine Returns.pure ⟨?_, ends.2, nofun⟩
      rintro _ ⟨⟩
      exact ends.1
    | ok progress =>
      refine Returns.step (Heap.readArena_of_ok rfl) ?_
      -- The report goes to the journal, which no block depends on.
      refine (Heap.record_returns _).bind fun _ after same => Returns.pure ?_
      have hosts := ends.hosts.unchanged same
      exact ⟨nofun, ⟨_, hosts⟩, fun _ _ => ⟨progress, hosts, ends.counted, ends.sizes⟩⟩
  · exact .inr ⟨fault, stopped, bind_of_error fails, capacity, asked⟩

/-- The payloads that have bytes are at home in blocks of their own. -/
theorem Follows.houses {trace : Trace} (before : Sound start kept)
    (follows : Follows start kept trace.sizes progress heap) :
    trace.Houses (fun id => (progress.entry id).address) start heap := by
  obtain ⟨hosts, -, sizes⟩ := follows
  -- A number that is live with bytes is that of a payload that the heap hosts.
  have found {id size : Nat} (live : trace.sizes id = some size) :
      progress.entry id ∈ progress.live ∧ (progress.entry id).id = id
        ∧ (progress.entry id).size = size := by
    rw [← sizes, Option.map_eq_some_iff] at live
    obtain ⟨payload, found, rfl⟩ := live
    simp only [Progress.entry, found, Option.getD_some]
    exact ⟨List.mem_of_find?_eq_some found, by simpa using List.find?_some found, trivial⟩
  have nodup := List.nodup_append.mp hosts.sound.nodup
  constructor
  · intro address width
    rw [hosts.allocates_iff before]
    refine or_congr_right ⟨?_, ?_⟩
    · rintro ⟨payload, member, positive, rfl, rfl⟩
      have entry := Progress.find?_of_mem hosts.numbered member
      refine ⟨payload.id, payload.size, ?_, positive, ?_, rfl⟩
      · rw [← sizes, entry]
        rfl
      · simp only [Progress.entry, entry, Option.getD_some]
    · rintro ⟨id, size, live, positive, rfl, rfl⟩
      obtain ⟨member, -, rfl⟩ := found live
      exact ⟨_, member, positive, rfl, rfl⟩
  · intro id size live positive width allocates
    obtain ⟨member, -, rfl⟩ := found live
    have present := (hosts.holds _ member).present positive
    have old := ((before.allocates_iff _ _).mp allocates).1
    exact nodup.2.2 _ (mem_addresses member present) _ old rfl
  · intro id other size width live positive also _ same
    obtain ⟨member, number, rfl⟩ := found live
    obtain ⟨there, otherNumber, -⟩ := found also
    have present := (hosts.holds _ member).present positive
    rw [← number, ← otherNumber, eq_of_address nodup.1 member there present same]

/-- A replay that returns leaves a sound heap. -/
theorem sound_of_run {live : List Address} {trace : Trace} {result : Except ReplayError Report}
    (sound : Sound heap live) (run : trace.replay heap = .ok result after) :
    ∃ others, Sound after others := by
  rcases replay_plays sound trace with returns | ⟨fault, stopped, fails, -⟩
  · obtain ⟨-, ⟨payloads, hosts⟩, -⟩ := returns.of_run run
    exact ⟨_, hosts.sound⟩
  · cases run.symm.trans fails

/-- Whatever a replay ends in, it has done no damage. -/
theorem replayed_of_run {live : List Address} {trace : Trace} {result : Except ReplayError Report}
    (sound : Sound heap live) (run : trace.replay heap = .ok result after) :
    trace.Replayed live heap after result := by
  -- The run did return, so the replay was not stopped.
  rcases replay_plays sound trace with returns | ⟨fault, stopped, fails, -⟩
  case inr => cases run.symm.trans fails
  obtain ⟨harmless, ⟨payloads, hosts⟩, follows⟩ := returns.of_run run
  constructor
  · refine fun operation id => ⟨?_, ?_⟩
    · rintro rfl
      exact harmless _ rfl trivial
    · rintro rfl
      exact harmless _ rfl trivial
  · exact validate_of_wellFormed hosts.sound.wellFormed
  · intro address member
    obtain ⟨bytes, read⟩ := sound.readable member
    exact ⟨bytes, read, (hosts.spared address member).trans read⟩
  · intro report ended
    obtain ⟨progress, follows⟩ := follows report ended
    exact ⟨_, follows.houses sound⟩

end Replay

namespace CommandLine

/-- A replay that comes to its end leaves a heap that can be shown and that is sound. -/
theorem runOn_of_replayed {arena : Arena} {options : Options} {trace : Trace}
    {heap after : Heap} {report : Report}
    (builds : Heap.build (.unbuilt arena options.config) = .ok (.ok ()) heap)
    (replays : trace.replay heap = .ok (.ok report) after) :
    ∃ text, after.dump = .ok text ∧ runOn arena options trace =
      ⟨after.journal.toList, if options.dump then text else "", .replayed report⟩ := by
  have reachable := Reachable.built (Heap.new_eq_ok_iff.mpr builds)
  obtain ⟨others, sound⟩ := Replay.sound_of_run reachable.sound replays
  obtain ⟨layout, describes, -⟩ := sound.layout
  have valid : after.validate = .ok (.ok ()) := validate_of_wellFormed ⟨layout, describes⟩
  have passes : Heap.check after = .ok true after := bind_of_ok (reading_of_ok valid)
  have shows := Heap.dump_eq describes
  refine ⟨_, shows, ?_⟩
  unfold runOn
  simp only [builds, replays]
  by_cases asked : options.dump = true
  · simp only [asked, if_true, shows, passes]
  · simp only [asked, if_false, passes, Bool.false_eq_true]

/-- A trace on a new heap does not leave it inconsistent. -/
theorem consistent_of_runOn (arena : Arena) (options : Options) (trace : Trace) :
    (runOn arena options trace).ending ≠ .failed .inconsistent := by
  intro inconsistent
  have whole := inconsistent
  unfold runOn at whole
  split at whole
  · cases whole
  · cases whole
  next heap builds =>
    split at whole
    · cases whole
    · cases whole
    next report after replays =>
      obtain ⟨text, -, answers⟩ := runOn_of_replayed builds replays
      rw [answers] at inconsistent
      cases inconsistent

end CommandLine

/-- A replay on a reachable heap never finds a payload overwritten or misaligned. However it ends,
the heap is sound and the payloads from before are as they were, and a replay that meets all
requests adds one block for each payload that is still live with bytes. Only a size that halts the
heap keeps it from ending. So no trace leaves a new heap inconsistent. -/
theorem replay_sound {heap : Heap} {live : List Address} (reachable : Reachable heap live)
    (trace : Trace) :
    ((∃ result after, trace.replay heap = .ok result after)
        ∨ ∃ fault stopped, trace.replay heap = .error fault stopped
          ∧ stopped.arena.capacity = heap.arena.capacity
          ∧ ∃ request ∈ trace, Heap.Halts request.size stopped fault)
      ∧ (∀ result after, trace.replay heap = .ok result after →
        trace.Replayed live heap after result)
      ∧ ∀ arena options,
        (CommandLine.runOn arena options trace).ending ≠ .failed .inconsistent := by
  have sound := reachable.sound
  refine ⟨?_, fun _ _ => replayed_of_run sound,
    fun arena options => CommandLine.consistent_of_runOn arena options trace⟩
  rcases replay_plays sound trace with
    ⟨result, after, run, -⟩ | ⟨fault, stopped, fails, capacity, -, ⟨request, member, rfl⟩, halts⟩
  · exact .inl ⟨result, after, run⟩
  · exact .inr ⟨fault, stopped, fails, capacity, request, member, halts⟩

/-- A trace of one request that is met is replayed to its end. -/
theorem Replay.replay_of_step {heap after : Heap} {next : Progress} (request : Request)
    (met : step 0 request .start heap = .ok (.ok next) after) :
    ∃ report last, Trace.replay [request] heap = .ok (.ok report) last := by
  have stepped : steps 0 [request] .start heap = .ok (.ok next.mark) after := bind_of_ok met
  exact ⟨_, _, bind_of_ok stepped⟩

/-- A trace of one request, on a heap with a live payload, leaves one more block. -/
theorem replay_sound_of_one : ∃ (heap after : Heap) (first home : Address) (report : Report),
    Reachable heap [first] ∧ Trace.replay [.allocate 7 200] heap = .ok (.ok report) after
      ∧ Trace.Replayed [.allocate 7 200] [first] heap after (.ok report)
      ∧ after.Allocates home 208 ∧ ¬heap.Allocates home 208 := by
  obtain ⟨-, heap, two, first, second, -, -, reachable, -, run, -⟩ := exists_run
  obtain ⟨_, last, met, next, rfl, -⟩ : Returns (allocate 0 7 200 .start) heap _ :=
    allocate_returns (follows_start reachable.sound) rfl run
  obtain ⟨report, after, played⟩ := Replay.replay_of_step (.allocate 7 200) met
  have replayed := (replay_sound reachable [.allocate 7 200]).2.1 _ _ played
  obtain ⟨home, houses⟩ := replayed.housed report rfl
  exact ⟨heap, after, first, home 7, report, reachable, played, replayed,
    (houses.blocks _ _).mpr (.inr ⟨7, 200, rfl, by decide, rfl, by decide⟩),
    houses.new 7 200 rfl (by decide) 208⟩

end BoundaryTag
