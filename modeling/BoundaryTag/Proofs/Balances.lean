import BoundaryTag.Proofs.Accounts
import BoundaryTag.Proofs.Doubles
import BoundaryTag.Proofs.Requests

/-!
# The balance of a replay

A replay counts the bytes that are live, as requested. What it has counted is at all times what the
live payloads have together, and these lie in blocks of their own between the two sentinels, so the
arena has room for the count and for two words more. No request lowers the break, which is why the
arena at the end has that room for the peak as well, however long ago it was reached.

So the count never leaves the range of a machine word. What stops a replay is a call of the heap,
at the request that makes it.
-/
namespace BoundaryTag

open Replay

/-- What a request asks of the heap. -/
def Request.call (progress : Progress) : Request → Call
  | allocate _ size => .allocate size
  | resize id size => .resize (progress.entry id).address size
  | release id => .release (progress.entry id).address

/-- What a replay has counted is what is live, and the arena has room for it and for two words more,
now as at the peak. -/
structure Progress.Balances (progress : Progress) (heap : Heap) : Prop where
  counted : progress.current = (progress.live.map (·.size)).sum
  /-- What is counted of one payload can be taken off again. -/
  covers : ∀ id, ∃ left, (progress.forget id).discount (progress.entry id).size = .ok left
  room : progress.current + 16 ≤ heap.arena.hi
  roomAtPeak : progress.peak + 16 ≤ heap.arena.hi

/-! ## The break -/

/-- If the action ends without a fault, it has not lowered the break. -/
def Ascends {Result : Type} (action : HeapM Result) (heap : Heap) : Prop :=
  ∀ result after, action heap = .ok result after → heap.arena.hi ≤ after.arena.hi

section Ascends

variable {Result Next : Type} {action : HeapM Result} {next : Result → HeapM Next} {heap : Heap}

theorem Ascends.pure (result : Result) : Ascends (pure result) heap := by
  intro _ _ run
  cases run
  exact Nat.le_refl _

theorem Ascends.bind (first : Ascends action heap)
    (second : ∀ result after, action heap = .ok result after → Ascends (next result) after) :
    Ascends (action >>= next) heap := by
  intro answer final run
  obtain ⟨result, after, begins, rest⟩ := exists_of_bind run
  exact (first result after begins).trans (second result after begins answer final rest)

/-- A check leaves the heap as it is. -/
theorem Ascends.reading {read : Heap → Except Fault Result}
    (second : ∀ result, Ascends (next result) heap) : Ascends (reading read >>= next) heap := by
  intro answer final run
  obtain ⟨result, after, begins, rest⟩ := exists_of_bind run
  cases answers : read heap with
  | error fault => cases begins.symm.trans (reading_of_error answers)
  | ok value =>
    cases begins.symm.trans (reading_of_ok answers)
    exact second _ answer final rest

end Ascends

namespace Replay

variable {start heap after : Heap} {kept : List Address} {sizes : Nat → Option Nat}
  {progress : Progress} {id size operation : Nat} {request : Request}

/-- A fill changes bytes below the break only. -/
theorem fill_ascends (payload : LivePayload) : Ascends (fill payload) heap := by
  unfold fill
  apply Ascends.reading
  intro size
  apply Ascends.reading
  rintro ⟨⟩ ⟨⟩ after run
  unfold Heap.onArena Arena.writeBytes at run
  by_cases inside : payload.address.offset + payload.size ≤ heap.arena.hi
  · simp only [inside, dif_pos] at run
    cases run
    exact Nat.le_refl _
  · simp only [inside, dif_neg, not_false_eq_true] at run
    cases run

theorem settle_ascends (progress : Progress) (payload : LivePayload) :
    Ascends (do
        fill payload
        return .ok (← progress.add payload) : HeapM (Except ReplayError Progress)) heap := by
  apply (fill_ascends payload).bind
  intro _ _ _
  apply Ascends.reading
  exact fun next => Ascends.pure _

theorem allocate_ascends (follows : Follows start kept sizes progress heap)
    (operation id size : Nat) : Ascends (allocate operation id size progress) heap := by
  have permitted : (Call.allocate size).Permitted (addresses progress.live ++ kept) := .inl rfl
  have call : Ascends (Heap.allocate size) heap := fun _ _ run =>
    (effect_of_run follows.hosts.sound permitted run).higher nofun
  unfold Replay.allocate
  split
  · exact Ascends.pure _
  · apply call.bind
    intro answer middle _
    cases answer with
    | error source => exact Ascends.pure _
    | ok address =>
      simp only
      split
      · exact Ascends.pure _
      · exact settle_ascends progress _

theorem resize_ascends (follows : Follows start kept sizes progress heap)
    (operation id size : Nat) : Ascends (resize operation id size progress) heap := by
  have hosts := (follows.focus id).1
  have permitted : (Call.resize (progress.entry id).address size).Permitted
      (addresses (progress.entry id :: (progress.forget id).live) ++ kept) := null_or_mem _ _ _
  have call : Ascends (Heap.resize (progress.entry id).address size) heap := fun _ _ run =>
    (effect_of_run hosts.sound permitted run).higher nofun
  unfold Replay.resize
  apply Ascends.reading
  intro checked
  split
  · exact Ascends.pure _
  · apply call.bind
    intro answer middle _
    cases answer with
    | error source => exact Ascends.pure _
    | ok address =>
      apply Ascends.reading
      intro next
      split
      · exact Ascends.pure _
      · split
        · exact Ascends.pure _
        · apply Ascends.reading
          intro moved
          split
          · exact Ascends.pure _
          · exact settle_ascends next _

theorem release_ascends (follows : Follows start kept sizes progress heap) (operation id : Nat) :
    Ascends (release operation id progress) heap := by
  have hosts := (follows.focus id).1
  have call : Ascends (Heap.release (progress.entry id).address) heap := fun _ _ run =>
    ((Sound.release hosts.sound (null_or_mem _ _ _)).of_run run).higher nofun
  unfold Progress.entry at call
  unfold Replay.release
  cases found : progress.find? id with
  | none => exact Ascends.pure _
  | some old =>
    rw [found] at call
    apply Ascends.reading
    intro checked
    split
    · exact Ascends.pure _
    · apply call.bind
      intro _ _ _
      apply Ascends.reading
      exact fun next => Ascends.pure _

theorem step_ascends (follows : Follows start kept sizes progress heap) (operation : Nat)
    (request : Request) : Ascends (step operation request progress) heap := by
  cases request with
  | allocate id size => exact allocate_ascends follows operation id size
  | resize id size => exact resize_ascends follows operation id size
  | release id => exact release_ascends follows operation id

/-! ## The account -/

theorem Follows.balances (follows : Follows start kept sizes progress heap)
    (roomAtPeak : progress.peak + 16 ≤ heap.arena.hi) : progress.Balances heap := by
  refine ⟨follows.counted, fun id => ?_, ?_, roomAtPeak⟩
  · exact ⟨_, Progress.discount_forget (follows.focus id).2.2⟩
  · rw [follows.counted]
    exact follows.hosts.total_add_le

/-- A request that is met keeps the room for the peak, since the peak was there before it or is what
is live after it. -/
theorem step_peak {next : Progress} (follows : Follows start kept sizes progress heap)
    (roomAtPeak : progress.peak + 16 ≤ heap.arena.hi)
    (run : step operation request progress heap = .ok (.ok next) after) :
    Follows start kept (request.settle sizes) next.mark after
      ∧ next.mark.peak + 16 ≤ after.arena.hi := by
  have higher := step_ascends follows operation request _ _ run
  cases wrong : request.complaint? operation sizes with
  | some complaint => cases run.symm.trans (step_of_complaint follows wrong)
  | none =>
    have same : next.peak = progress.peak := step_yields follows wrong _ _ _ run
    rcases step_plays follows operation request with returns | ⟨fault, stopped, fails, -⟩
    case inr => cases run.symm.trans fails
    have ends : Follows start kept (request.settle sizes) next after := returns.of_run run
    have room := ends.hosts.total_add_le
    rw [← ends.counted] at room
    refine ⟨ends.mark, ?_⟩
    change max next.peak next.current + 16 ≤ after.arena.hi
    omega

theorem steps_balance {requests : List Request} {reached : Progress}
    (follows : Follows start kept sizes progress heap)
    (roomAtPeak : progress.peak + 16 ≤ heap.arena.hi)
    (run : steps operation requests progress heap = .ok (.ok reached) after) :
    reached.Balances after := by
  -- The induction is on the requests still to come, as each of them keeps the room for the peak.
  induction requests generalizing operation sizes progress heap with
  | nil =>
    cases run
    exact follows.balances roomAtPeak
  | cons request rest ih =>
    unfold steps at run
    obtain ⟨answer, middle, stepped, run⟩ := exists_of_bind run
    cases answer with
    | error error => cases run
    | ok next =>
      obtain ⟨ends, room⟩ := step_peak follows roomAtPeak stepped
      exact ih ends room run

theorem start_peak {live : List Address} (sound : Sound heap live) :
    Progress.start.peak + 16 ≤ heap.arena.hi :=
  (follows_start sound).hosts.total_add_le

/-- The report is made of the account and of the arena at the end. -/
theorem report_within {live : List Address} {trace : Trace} {report : Report}
    (sound : Sound heap live) (run : trace.replay heap = .ok (.ok report) after) :
    report.peakPayload + 16 ≤ report.arenaBytes ∧ report.arenaBytes < wordLimit := by
  obtain ⟨answer, middle, stepped, run⟩ := exists_of_bind run
  cases answer with
  | error error => cases run
  | ok progress =>
    have balances := steps_balance (follows_start sound) (start_peak sound) stepped
    obtain ⟨bytes, _, measured, run⟩ := exists_of_bind run
    cases measured
    obtain ⟨-, -, -, run⟩ := exists_of_bind run
    cases run
    exact ⟨balances.roomAtPeak, middle.arena.hi_lt⟩

/-! ## Faults -/

/-- Once the heap has answered its call, a request does not stop the replay. -/
theorem step_stops {fault : Fault} (follows : Follows start kept sizes progress heap)
    (fails : step operation request progress heap = .error fault after) :
    (request.call progress).run heap = .error fault after := by
  cases request with
  | allocate id size =>
    cases found : progress.find? id with
    | some payload =>
      have live : (progress.find? id).isSome = true := by simp [found]
      simp only [step, Replay.allocate, live, if_true] at fails
      cases fails
    | none =>
      cases run : Heap.allocate size heap with
      | ok answer middle => exact absurd fails (allocate_ends follows operation found run).ne_error
      | error other stopped =>
        cases (allocate_of_error operation found run).symm.trans fails
        exact run
  | resize id size =>
    cases run : Heap.resize (progress.entry id).address size heap with
    | ok answer middle => exact absurd fails (resize_ends follows operation run).ne_error
    | error other stopped =>
      cases (resize_of_error follows operation run).symm.trans fails
      exact run
  | release id => exact absurd fails (release_ends follows operation id).ne_error

theorem steps_stop {fault : Fault} {requests : List Request}
    (follows : Follows start kept sizes progress heap)
    (fails : steps operation requests progress heap = .error fault after) :
    ∃ done request rest reached before, requests = done ++ request :: rest
      ∧ steps operation done progress heap = .ok (.ok reached) before
      ∧ (request.call reached).run before = .error fault after := by
  induction requests generalizing operation sizes progress heap with
  | nil => cases fails
  | cons request rest ih =>
    unfold steps at fails
    cases stepped : step operation request progress heap with
    | error other stopped =>
      cases (bind_of_error stepped).symm.trans fails
      exact ⟨[], request, rest, progress, heap, rfl, rfl, step_stops follows stepped⟩
    | ok answer middle =>
      rw [bind_of_ok stepped] at fails
      cases answer with
      | error error => cases fails
      | ok next =>
        rcases step_plays follows operation request with returns | ⟨other, stopped, halts, -⟩
        case inr => cases stepped.symm.trans halts
        -- The request has been met, and one of the others is the one that stops the replay.
        obtain ⟨done, last, others, reached, before, rfl, run, stops⟩ :=
          ih (Follows.mark (returns.of_run stepped)) fails
        exact ⟨request :: done, last, others, reached, before, rfl,
          (bind_of_ok stepped).trans run, stops⟩

theorem replay_stops {live : List Address} {trace : Trace} {fault : Fault}
    (sound : Sound heap live) (fails : trace.replay heap = .error fault after) :
    ∃ done request rest reached before, trace = done ++ request :: rest
      ∧ steps 0 done .start heap = .ok (.ok reached) before
      ∧ (request.call reached).run before = .error fault after := by
  unfold Trace.replay at fails
  cases played : steps 0 trace .start heap with
  | error other stopped =>
    cases (bind_of_error played).symm.trans fails
    exact steps_stop (follows_start sound) played
  | ok answer middle =>
    rw [bind_of_ok played] at fails
    cases answer with
    | error error => cases fails
    | ok progress => cases fails

end Replay

/-- What a replay on a reachable heap has counted is before every request what its live payloads
have together, and the arena has room for that and for two words more. Counting never leaves the
range of a machine word: where a replay stops, it is the heap that stops, at the call of a request.
The arena of a report has room for the peak and for two words more, and its utilization is at most
one. -/
theorem replay_stays_within {heap : Heap} {live : List Address} (reachable : Reachable heap live)
    (trace : Trace) :
    (∀ done progress before, done <+: trace →
        Replay.steps 0 done .start heap = .ok (.ok progress) before → progress.Balances before)
      ∧ (∀ fault stopped, trace.replay heap = .error fault stopped →
        ∃ done request rest progress before, trace = done ++ request :: rest
          ∧ Replay.steps 0 done .start heap = .ok (.ok progress) before
          ∧ (request.call progress).run before = .error fault stopped)
      ∧ ∀ report after, trace.replay heap = .ok (.ok report) after →
        report.peakPayload + 16 ≤ report.arenaBytes ∧ report.utilization ≤ 1 := by
  have sound := reachable.sound
  refine ⟨fun done progress before _ run => ?_, fun fault stopped => replay_stops sound, ?_⟩
  · exact steps_balance (follows_start sound) (start_peak sound) run
  · intro report after run
    obtain ⟨room, machine⟩ := report_within sound run
    exact ⟨room, utilization_le_one (by omega) machine⟩

/-- A replay of one allocation comes to its end. With one more, of a size that no heap can round up,
it stops at the call for that. -/
theorem replay_stays_within_of_two : ∃ (heap middle after : Heap) (first : Address)
    (progress : Progress) (report : Report), Reachable heap [first]
      ∧ Replay.steps 0 [.allocate 7 200] .start heap = .ok (.ok progress) middle
      ∧ progress.Balances middle
      ∧ Trace.replay [.allocate 7 200] heap = .ok (.ok report) after
      ∧ report.peakPayload = 200 ∧ 216 ≤ report.arenaBytes ∧ report.utilization ≤ 1
      ∧ Trace.replay [.allocate 7 200, .allocate 8 18446744073709551591] heap =
        .error .overflow middle
      ∧ (Call.allocate 18446744073709551591).run middle = .error .overflow middle := by
  obtain ⟨-, heap, two, first, _, -, -, reachable, -, run, -⟩ := exists_run
  obtain ⟨_, middle, met, next, rfl, follows⟩ : Returns (allocate 0 7 200 .start) heap _ :=
    allocate_returns (follows_start reachable.sound) rfl run
  obtain ⟨report, after, played⟩ := replay_of_step (.allocate 7 200) met
  have stepped : steps 0 [.allocate 7 200] .start heap = .ok (.ok next.mark) middle :=
    bind_of_ok met
  obtain ⟨layout, describes, -⟩ := follows.mark.hosts.sound.layout
  have stops := allocate_of_overlong (by decide : Heap.Overlong 18446744073709551591) describes
  have absent : next.mark.find? 8 = none := Option.map_eq_none_iff.mp (follows.sizes 8)
  have halted : Trace.replay [.allocate 7 200, .allocate 8 18446744073709551591] heap =
      .error .overflow middle :=
    bind_of_error ((bind_of_ok met).trans (bind_of_error (allocate_of_error 1 absent stops)))
  have peak : report.peakPayload = 200 :=
    ((replay_accounted reachable.sound played).reported report rfl).2.2
  obtain ⟨balances, -, within⟩ := replay_stays_within reachable [.allocate 7 200]
  obtain ⟨room, share⟩ := within report after played
  rw [peak] at room
  exact ⟨heap, middle, after, first, next.mark, report, reachable, stepped,
    balances _ _ _ List.prefix_rfl stepped, played, peak, room, share, halted, stops⟩

end BoundaryTag
