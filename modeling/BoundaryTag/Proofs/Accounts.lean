import BoundaryTag.Proofs.Replays
import Mathlib.Algebra.BigOperators.Group.Finset.Basic
import Mathlib.Data.Finset.Lattice.Fold
import Mathlib.Order.Interval.Finset.Nat
import Mathlib.Order.Lattice.Nat

/-!
# Accounts of a trace

What a trace asks for can be accounted for without a heap: which of its requests is the first that
cannot be met because of the number it names, and how many bytes are live at most. A replay agrees
with this account on every heap. It complains of nothing else and reports no other peak; the one
thing a heap has a say in is whether it runs out of memory before that.
-/
namespace BoundaryTag

open Replay

/-! ## Without a heap -/

/-- The number of the payload that a request is about. -/
def Request.id : Request → Nat
  | allocate id _ | resize id _ | release id => id

/-- What is wrong with a request when the payloads of these sizes are live. -/
def Request.complaint? (operation : Nat) (sizes : Nat → Option Nat) : Request → Option ReplayError
  | allocate id _ => if (sizes id).isSome then some (.liveId operation id) else none
  | resize _ _ => none
  | release id => if (sizes id).isSome then none else some (.unknownId operation id)

/-- The first thing that is wrong with requests, the first of which has the given number. -/
def firstComplaint? (operation : Nat) (sizes : Nat → Option Nat) :
    List Request → Option ReplayError
  | [] => none
  | request :: rest => (request.complaint? operation sizes).or
      (firstComplaint? (operation + 1) (request.settle sizes) rest)

namespace Trace

/-- The first thing that is wrong with a trace. -/
def complaint? (trace : Trace) : Option ReplayError :=
  firstComplaint? 0 (fun _ => none) trace

/-- The bytes that are live after all requests. -/
def liveBytes (trace : Trace) : Nat :=
  ∑ id ∈ (trace.map Request.id).toFinset, (trace.sizes id).getD 0

/-- The most bytes that are live after some of the requests, the first ones. -/
def peak (trace : Trace) : Nat :=
  (Finset.range (trace.length + 1)).sup fun count => liveBytes (trace.take count)

end Trace

/-- The number of the operation that an error is about. -/
def ReplayError.operation : ReplayError → Nat
  | unknownId operation _ | liveId operation _ | corrupted operation _ | misaligned operation _
  | alloc operation _ => operation

/-- The outcome of a replay is in keeping with the account of its trace. -/
structure Trace.Agrees (trace : Trace) (result : Except ReplayError Report) : Prop where
  reported : ∀ report, result = .ok report → trace.complaint? = none
    ∧ report.operations = trace.length ∧ report.peakPayload = trace.peak
  complained : ∀ operation id,
    (result = .error (.liveId operation id) → trace.complaint? = some (.liveId operation id))
      ∧ (result = .error (.unknownId operation id) →
        trace.complaint? = some (.unknownId operation id))
  /-- Nothing but a refusal by the heap can come before a complaint. -/
  foreseen : ∀ complaint, trace.complaint? = some complaint → result = .error complaint
    ∨ ∃ operation source, result = .error (.alloc operation source)
      ∧ operation < complaint.operation

section Account

variable {trace : Trace} {request : Request} {sizes : Nat → Option Nat} {operation id size : Nat}
  {requests : List Request} {complaint : ReplayError}

theorem Request.operation_of_complaint
    (complains : request.complaint? operation sizes = some complaint) :
    complaint.operation = operation := by
  cases request with
  | resize => cases complains
  | allocate | release =>
    simp only [complaint?] at complains
    split at complains <;> cases complains
    rfl

/-- The operations before the given number are not complained of. -/
theorem le_of_firstComplaint
    (complains : firstComplaint? operation sizes requests = some complaint) :
    operation ≤ complaint.operation := by
  induction requests generalizing operation sizes with
  | nil => cases complains
  | cons request rest ih =>
    rcases Option.or_eq_some_iff.mp complains with now | ⟨-, later⟩
    · exact (Request.operation_of_complaint now).ge
    · have bound := ih later
      omega

theorem firstComplaint_cons (fair : request.complaint? operation sizes = none) :
    firstComplaint? operation sizes (request :: requests) =
      firstComplaint? (operation + 1) (request.settle sizes) requests := by
  simp [firstComplaint?, fair]

theorem Request.settle_of_ne (different : id ≠ request.id) :
    request.settle sizes id = sizes id := by
  cases request <;> exact Function.update_of_ne different _ _

theorem foldl_settle_of_not_mem (absent : id ∉ requests.map Request.id) :
    requests.foldl Request.settle sizes id = sizes id := by
  induction requests generalizing sizes with
  | nil => rfl
  | cons request rest ih =>
    simp only [List.map_cons, List.mem_cons, not_or] at absent
    rw [List.foldl_cons, ih absent.2, Request.settle_of_ne absent.1]

namespace Trace

theorem mem_of_sizes (live : trace.sizes id = some size) : id ∈ trace.map Request.id := by
  by_contra absent
  rw [sizes, foldl_settle_of_not_mem absent] at live
  cases live

theorem sizes_concat (trace : Trace) (request : Request) :
    Trace.sizes (trace ++ [request]) = request.settle trace.sizes :=
  List.foldl_concat ..

theorem peak_nil : peak [] = 0 := rfl

/-- A peak is reached before the last request or after it. -/
theorem peak_concat (trace : Trace) (request : Request) :
    peak (trace ++ [request]) = max (peak trace) (liveBytes (trace ++ [request])) := by
  have whole : (trace ++ [request]).take (trace.length + 1) = trace ++ [request] :=
    List.take_of_length_le (by simp)
  have before : (Finset.range (trace.length + 1)).sup
      (fun count => liveBytes ((trace ++ [request]).take count)) = peak trace :=
    Finset.sup_congr rfl fun count member => by
      have below : count ≤ trace.length := by simpa [Nat.lt_succ_iff] using member
      rw [List.take_append_of_le_length below]
  rw [peak, List.length_append, List.length_singleton, Finset.range_add_one, Finset.sup_insert,
    whole, before]
  exact sup_comm _ _

/-- Payloads of 24 and 40 bytes are live at first, then one of 200 bytes and one of 16. -/
example : peak [.allocate 0 24, .allocate 1 40, .release 0, .resize 1 200, .allocate 2 16,
    .release 2, .resize 1 0] = 216 := by decide

end Trace

end Account

/-! ## One request of a replay -/

theorem Progress.peak_of_discount {progress next : Progress} {id size : Nat}
    (counted : (progress.forget id).discount size = .ok next) : next.peak = progress.peak := by
  obtain ⟨_, -, counted⟩ := exists_of_except_bind counted
  cases counted
  rfl

theorem Progress.peak_of_add {progress next : Progress} {payload : LivePayload}
    (counted : progress.add payload = .ok next) : next.peak = progress.peak := by
  obtain ⟨_, -, counted⟩ := exists_of_except_bind counted
  cases counted
  rfl

namespace Replay

variable {start heap after : Heap} {kept : List Address} {sizes : Nat → Option Nat}
  {progress : Progress} {id size operation : Nat} {request : Request} {complaint : ReplayError}

theorem Follows.sizes_of_mem {payload : LivePayload}
    (follows : Follows start kept sizes progress heap) (member : payload ∈ progress.live) :
    sizes payload.id = some payload.size := by
  rw [← follows.sizes, Progress.find?_of_mem follows.hosts.numbered member]
  rfl

theorem Follows.mem_of_sizes (follows : Follows start kept sizes progress heap)
    (live : sizes id = some size) : id ∈ progress.live.map (·.id) := by
  rw [← follows.sizes, Option.map_eq_some_iff] at live
  obtain ⟨payload, found, -⟩ := live
  have same : payload.id = id := by simpa using List.find?_some found
  exact same ▸ List.mem_map_of_mem (List.mem_of_find?_eq_some found)

/-- The bytes counted as live are those of the account. -/
theorem Follows.current_eq {trace : Trace}
    (follows : Follows start kept trace.sizes progress heap) :
    progress.current = trace.liveBytes := by
  have sum : ∑ id ∈ (progress.live.map (·.id)).toFinset, (trace.sizes id).getD 0 =
      total progress.live := by
    rw [List.sum_toFinset _ follows.hosts.numbered, List.map_map, total]
    apply congrArg List.sum
    apply List.map_congr_left
    intro payload member
    simp [follows.sizes_of_mem member]
  rw [follows.counted, ← sum]
  -- The other numbers of the trace are not live.
  apply Finset.sum_subset
  · intro id member
    obtain ⟨payload, there, rfl⟩ := List.mem_map.mp (List.mem_toFinset.mp member)
    exact List.mem_toFinset.mpr (Trace.mem_of_sizes (follows.sizes_of_mem there))
  · intro id _ absent
    cases live : trace.sizes id with
    | none => rfl
    | some size => exact absurd (List.mem_toFinset.mpr (follows.mem_of_sizes live)) absent

/-- What a request that is not complained of can end in. -/
def Ordinary (operation peak : Nat) : Except ReplayError Progress → Prop
  | .ok next => next.peak = peak
  | .error error => error.FindsDamage ∨ ∃ source, error = .alloc operation source

/-- A payload is counted in without a look at the peak. -/
theorem settle_yields (operation : Nat) (progress : Progress) (payload : LivePayload) :
    Yields (do
        fill payload
        return .ok (← progress.add payload) : HeapM (Except ReplayError Progress))
      (Ordinary operation progress.peak) := by
  apply Yields.after
  intro _
  apply Yields.lift
  intro next counted
  exact Yields.pure (Progress.peak_of_add counted)

theorem allocate_yields (absent : progress.find? id = none) (operation size : Nat) :
    Yields (allocate operation id size progress) (Ordinary operation progress.peak) := by
  unfold Replay.allocate
  rw [absent]
  apply Yields.after
  intro answer
  cases answer with
  | error source => exact Yields.pure (.inr ⟨source, rfl⟩)
  | ok address =>
    simp only
    split
    · exact Yields.pure (.inl trivial)
    · exact settle_yields operation progress _

theorem resize_yields (operation id size : Nat) (progress : Progress) :
    Yields (resize operation id size progress) (Ordinary operation progress.peak) := by
  unfold Replay.resize
  apply Yields.after
  intro checked
  split
  · exact Yields.pure (.inl trivial)
  · apply Yields.after
    intro answer
    cases answer with
    | error source => exact Yields.pure (.inr ⟨source, rfl⟩)
    | ok address =>
      apply Yields.lift
      intro next counted
      have same : next.peak = progress.peak := Progress.peak_of_discount counted
      rw [← same]
      split
      · exact Yields.pure rfl
      · split
        · exact Yields.pure (.inl trivial)
        · apply Yields.after
          intro moved
          split
          · exact Yields.pure (.inl trivial)
          · exact settle_yields operation next _

theorem release_yields {old : LivePayload} (found : progress.find? id = some old)
    (operation : Nat) :
    Yields (release operation id progress) (Ordinary operation progress.peak) := by
  unfold Replay.release
  rw [found]
  apply Yields.after
  intro checked
  split
  · exact Yields.pure (.inl trivial)
  · apply Yields.after
    intro _
    apply Yields.lift
    intro next counted
    exact Yields.pure (Progress.peak_of_discount counted)

/-- Whether a number is live is the same in the replay as in the account. -/
theorem Follows.isSome_eq (follows : Follows start kept sizes progress heap) (id : Nat) :
    (sizes id).isSome = (progress.find? id).isSome := by
  rw [← follows.sizes, Option.isSome_map]

theorem step_yields (follows : Follows start kept sizes progress heap)
    (fair : request.complaint? operation sizes = none) :
    Yields (step operation request progress) (Ordinary operation progress.peak) := by
  cases request with
  | allocate id size =>
    have absent : progress.find? id = none := by
      simpa [Request.complaint?, follows.isSome_eq] using fair
    exact allocate_yields absent operation size
  | resize id size => exact resize_yields operation id size progress
  | release id =>
    obtain ⟨old, found⟩ : ∃ old, progress.find? id = some old := by
      simpa [Request.complaint?, follows.isSome_eq, Option.isSome_iff_exists] using fair
    exact release_yields found operation

/-- A request that is wrong is answered before the heap is asked. -/
theorem step_of_complaint (follows : Follows start kept sizes progress heap)
    (complains : request.complaint? operation sizes = some complaint) :
    step operation request progress heap = .ok (.error complaint) heap := by
  cases request with
  | allocate id size =>
    simp only [Request.complaint?, follows.isSome_eq] at complains
    split at complains
    case isFalse => cases complains
    case isTrue live =>
      cases complains
      simp only [step, allocate, live, if_true]
      rfl
  | resize id size => cases complains
  | release id =>
    simp only [Request.complaint?, follows.isSome_eq] at complains
    split at complains
    case isTrue => cases complains
    case isFalse unknown =>
      cases complains
      have absent : progress.find? id = none := by simpa using unknown
      simp only [step, release, absent]
      rfl

/-! ## All requests of a replay -/

/-- The requests to come, after those that are done, end in keeping with the account. -/
def Accounted (done requests : Trace) : Except ReplayError Progress → Prop
  | .ok progress => firstComplaint? done.length done.sizes requests = none
      ∧ progress.peak = Trace.peak (done ++ requests)
  | .error error => firstComplaint? done.length done.sizes requests = some error
      ∨ ∃ operation source, error = .alloc operation source
        ∧ ∀ complaint, firstComplaint? done.length done.sizes requests = some complaint →
          operation < complaint.operation

/-- A request that is met is one more that is done. -/
theorem Follows.concat {done : Trace} {next : Progress}
    (follows : Follows start kept (request.settle done.sizes) next after)
    (peak : next.peak = done.peak) :
    Follows start kept (Trace.sizes (done ++ [request])) next.mark after
      ∧ next.mark.peak = Trace.peak (done ++ [request]) := by
  rw [← Trace.sizes_concat] at follows
  have reached : next.mark.peak = Trace.peak (done ++ [request]) := by
    rw [Trace.peak_concat, ← peak, ← follows.current_eq]
    rfl
  exact ⟨follows.mark, reached⟩

theorem Accounted.cons {done requests : Trace} {result : Except ReplayError Progress}
    (fair : request.complaint? done.length done.sizes = none)
    (rest : Accounted (done ++ [request]) requests result) :
    Accounted done (request :: requests) result := by
  have same :
      firstComplaint? (done ++ [request]).length (Trace.sizes (done ++ [request])) requests =
        firstComplaint? done.length done.sizes (request :: requests) := by
    rw [firstComplaint_cons fair, Trace.sizes_concat, List.length_append, List.length_singleton]
  cases result with
  | ok progress =>
    simp only [Accounted, same, List.append_assoc, List.singleton_append] at rest
    exact rest
  | error error =>
    simp only [Accounted, same] at rest
    exact rest

theorem steps_accounted {done requests : Trace} {result : Except ReplayError Progress}
    (follows : Follows start kept done.sizes progress heap) (peak : progress.peak = done.peak)
    (run : steps done.length requests progress heap = .ok result after) :
    Accounted done requests result := by
  -- The induction is on the requests still to come. Those that are done have left the replay in
  -- agreement with the heap and with the account.
  induction requests generalizing done progress heap with
  | nil =>
    cases run
    exact ⟨rfl, by rw [List.append_nil, peak]⟩
  | cons request rest ih =>
    unfold steps at run
    obtain ⟨answer, middle, stepped, run⟩ := exists_of_bind run
    cases wrong : request.complaint? done.length done.sizes with
    | some complaint =>
      cases stepped.symm.trans (step_of_complaint follows wrong)
      cases run
      exact .inl (by simp [firstComplaint?, wrong])
    | none =>
      have ordinary := step_yields follows wrong _ _ _ stepped
      rcases step_plays follows done.length request with returns | ⟨fault, stopped, fails, -⟩
      case inr => cases stepped.symm.trans fails
      have ends := returns.of_run stepped
      cases answer with
      | error error =>
        cases run
        rcases ordinary with damage | ⟨source, rfl⟩
        · exact absurd damage ends.1
        · refine .inr ⟨done.length, source, rfl, fun complaint complains => ?_⟩
          rw [firstComplaint_cons wrong] at complains
          exact le_of_firstComplaint complains
      | ok next =>
        obtain ⟨marked, same⟩ := Follows.concat ends (ordinary.trans peak)
        have length : (done ++ [request]).length = done.length + 1 := by simp
        exact (ih marked same (by rw [length]; exact run)).cons wrong

theorem replay_accounted {live : List Address} {trace : Trace} {result : Except ReplayError Report}
    (sound : Sound heap live) (run : trace.replay heap = .ok result after) :
    trace.Agrees result := by
  obtain ⟨answer, middle, stepped, run⟩ := exists_of_bind run
  have accounted : Accounted [] trace answer :=
    steps_accounted (follows_start sound) Trace.peak_nil.symm stepped
  cases answer with
  | ok progress =>
    obtain ⟨fair, peak⟩ := accounted
    obtain ⟨bytes, -, -, run⟩ := exists_of_bind run
    obtain ⟨-, -, -, run⟩ := exists_of_bind run
    cases run
    constructor
    · rintro _ ⟨⟩
      exact ⟨fair, rfl, peak⟩
    · exact fun _ _ => ⟨nofun, nofun⟩
    · intro complaint complains
      cases fair.symm.trans complains
  | error error =>
    cases run
    constructor
    · nofun
    · intro operation id
      rcases accounted with complains | ⟨_, _, rfl, -⟩
      · exact ⟨by rintro ⟨⟩; exact complains, by rintro ⟨⟩; exact complains⟩
      · exact ⟨nofun, nofun⟩
    · intro complaint complains
      rcases accounted with first | ⟨operation, source, rfl, before⟩
      · cases first.symm.trans complains
        exact .inl rfl
      · exact .inr ⟨operation, source, rfl, before complaint complains⟩

end Replay

/-- A replay on a reachable heap agrees with the account of its trace, which knows of no heap. If it
meets all requests, none of them was wrong, it has counted them, and it reports the peak of the
account. If it complains of a number, so does the account, of the same one at the same operation;
and if the account complains, the replay ends in that complaint or in a refusal before it. So what
two replays of a trace report is the same on all heaps but for the size of the arena. -/
theorem replay_agrees {heap : Heap} {live : List Address} (reachable : Reachable heap live)
    (trace : Trace) :
    (∀ result after, trace.replay heap = .ok result after → trace.Agrees result)
      ∧ ∀ other kept report after second last, Reachable other kept →
        trace.replay heap = .ok (.ok report) after → trace.replay other = .ok (.ok second) last →
        report.operations = second.operations ∧ report.peakPayload = second.peakPayload := by
  refine ⟨fun _ _ => replay_accounted reachable.sound, ?_⟩
  intro other kept report after second last also run rerun
  obtain ⟨-, operations, peak⟩ := (replay_accounted reachable.sound run).reported report rfl
  obtain ⟨-, otherOperations, otherPeak⟩ := (replay_accounted also.sound rerun).reported second rfl
  exact ⟨operations.trans otherOperations.symm, peak.trans otherPeak.symm⟩

/-- An empty heap and one with a live payload report the same of a trace of one request. Where it
goes on with a second allocation under the same number, the replay ends in that complaint. -/
theorem replay_agrees_of_two : ∃ (heap other after last final : Heap) (first : Address)
    (report second : Report), Reachable heap [first] ∧ Reachable other []
      ∧ Trace.replay [.allocate 7 200] heap = .ok (.ok report) after
      ∧ Trace.replay [.allocate 7 200] other = .ok (.ok second) last
      ∧ report.peakPayload = 200 ∧ second.peakPayload = 200
      ∧ Trace.replay [.allocate 7 200, .allocate 7 8] heap = .ok (.error (.liveId 1 7)) final
      ∧ Trace.complaint? [.allocate 7 200, .allocate 7 8] = some (.liveId 1 7) := by
  obtain ⟨other, built, config, capacity, top⟩ := exists_fresh
  have chunk : other.config.chunkSize = 4096 := by rw [config]
  have sizes : max (blockSize 200) 4096 = 4096 := by decide
  have limit : 65536 ≤ Arena.bufferLimit := by decide
  obtain ⟨_, _, rerun, -⟩ := built.allocate 200 (by decide) (by omega) (by omega)
  obtain ⟨-, heap, two, first, _, -, -, reachable, -, run, -⟩ := exists_run
  obtain ⟨_, middle, met, next, rfl, follows⟩ : Returns (allocate 0 7 200 .start) heap _ :=
    allocate_returns (follows_start reachable.sound) rfl run
  obtain ⟨_, _, alike, _, rfl, -⟩ : Returns (allocate 0 7 200 .start) other _ :=
    allocate_returns (follows_start built.sound) rfl rerun
  obtain ⟨report, after, played⟩ := replay_of_step (.allocate 7 200) met
  obtain ⟨second, last, replayed⟩ := replay_of_step (.allocate 7 200) alike
  obtain ⟨agrees, same⟩ := replay_agrees reachable [.allocate 7 200]
  have peak : report.peakPayload = 200 := ((agrees _ _ played).reported report rfl).2.2
  have peaks := (same _ _ _ _ _ _ built played replayed).2
  -- The second allocation is answered without asking the heap.
  have again : step 1 (.allocate 7 8) next.mark middle = .ok (.error (.liveId 1 7)) middle :=
    step_of_complaint follows.mark rfl
  have stopped : steps 0 [.allocate 7 200, .allocate 7 8] .start heap =
      .ok (.error (.liveId 1 7)) middle :=
    (bind_of_ok met).trans (bind_of_ok again)
  have refused : Trace.replay [.allocate 7 200, .allocate 7 8] heap =
      .ok (.error (.liveId 1 7)) middle := bind_of_ok stopped
  have complains := ((replay_agrees reachable _).1 _ _ refused).complained 1 7
  exact ⟨heap, other, after, last, middle, first, report, second, reachable, built, played,
    replayed, peak, peaks.symm.trans peak, refused, complains.1 rfl⟩

end BoundaryTag
