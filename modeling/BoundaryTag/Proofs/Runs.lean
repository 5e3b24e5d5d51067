import BoundaryTag.Proofs.Calls

/-!
# The invariant of a run

One call keeps the invariant, whichever call it is, so every heap that can be reached keeps it. No
call stops in one of the checks that the operations make on the way: a call that ends at all ends in
an answer, unless it asks for a block that no machine word can measure or that no buffer can hold.
-/
namespace BoundaryTag

variable {heap : Heap} {live : List Address} {call : Call}

/-- The call has its effect, or it halts. -/
def Answers (call : Call) (live : List Address) (heap : Heap) : Prop :=
  (Returns call.run heap fun answer after => Effect call live heap after answer)
    ∨ ∃ fault, call.run heap = .error fault heap ∧ Heap.Halts call.size heap fault

/-- The call has its effect, or it stops for one of two reasons. -/
def Acts (call : Call) (live : List Address) (heap : Heap) : Prop :=
  (Returns call.run heap fun answer after => Effect call live heap after answer)
    ∨ ∃ fault, call.run heap = .error fault heap ∧ Heap.Stops call.size heap fault

theorem Answers.acts (answers : Answers call live heap) : Acts call live heap := by
  rcases answers with returns | ⟨fault, fails, halts⟩
  · exact .inl returns
  · exact .inr ⟨fault, fails, halts.stops⟩

theorem sound_of_emptied {after : Heap} (roomy : after.Roomy) (emptied : Heap.Emptied heap after) :
    Sound after [] := by
  obtain ⟨layout, describes, none, -⟩ := emptied.layout
  refine ⟨roomy, List.nodup_nil, layout, describes, fun address => ?_⟩
  refine iff_of_false List.not_mem_nil ?_
  rintro ⟨offset, size, held, -⟩
  exact none offset size held

theorem reset_returns_emptied (roomy : heap.Roomy) :
    Returns Call.reset.run heap fun answer after =>
      answer = .ok .null ∧ Heap.Emptied heap after := by
  refine (Heap.reset_returns roomy).bind ?_
  rintro _ after ⟨rfl, emptied⟩
  exact Returns.pure ⟨rfl, emptied⟩

section Cases

variable {layout : Layout} (sound : Sound heap live)
  (describes : layout.Describes heap.arena heap.lists)
  (members : ∀ address, address ∈ live ↔ Owned (Held layout.blocks) address)

include sound describes members

theorem answers_of_allocate (runs : call.run heap = Heap.allocate call.size heap)
    (accepted : ∀ address, call.liveAfter live (.ok address) = Call.handOut live address)
    (rejected : ∀ error, call.liveAfter live (.error error) = live) : Answers call live heap := by
  unfold Answers Returns
  rw [runs]
  refine (Heap.allocate_hands describes sound.roomy call.size).imp_left fun returns =>
    returns.mono fun answer after hands => ?_
  exact effect_of_hands sound describes members hands accepted rejected (fun _ => rfl) sound.nodup
    members (fun _ _ => id) fun _ _ held _ => held

theorem answers_of_zeroAllocate (count size : Nat) :
    Answers (.zeroAllocate count size) live heap := by
  refine (Heap.zeroAllocate_hands describes sound.roomy count size).imp_left fun returns =>
    returns.mono fun answer after hands => ?_
  exact effect_of_hands sound describes members hands (fun _ => rfl) (fun _ => rfl) (fun _ => rfl)
    sound.nodup members (fun _ _ => id) fun _ _ held _ => held

theorem answers_of_resize {address : Address} {size : Nat} (positive : 0 < size)
    (member : address ∈ live) : Answers (.resize address size) live heap := by
  obtain ⟨offset, old, held, rfl⟩ := (members address).mp member
  refine (Heap.resize_hands describes sound.roomy held positive).imp_left fun returns =>
    returns.mono fun answer after hands => ?_
  refine effect_of_hands sound describes members hands (fun _ => rfl) (fun _ => rfl) ?_
    (sound.nodup.erase _) ?_ (fun _ _ => And.left) ?_
  · exact fun empty => absurd positive (Nat.not_lt_of_le (Nat.le_of_eq empty))
  · intro address
    rw [sound.nodup.mem_erase_iff, owned_and_ne, members]
  · exact fun place width before different => ⟨before, fun same => different (by rw [same]; rfl)⟩

theorem release_null_effect (list : call.liveAfter live (.ok .null) = live.erase .null) :
    Returns (Heap.release .null) heap fun _ after => Effect call live heap after (.ok .null) := by
  have same : Heap.Unchanged heap heap := ⟨rfl, rfl, rfl⟩
  refine ⟨(), heap, rfl, ?_⟩
  refine effect_of_same sound describes members (same.becomes describes) ?_ null_of_answer nofun
  rw [list, List.erase_of_not_mem sound.not_null]

theorem release_effect {address : Address} (permitted : address = .null ∨ address ∈ live)
    (about : call.target = address)
    (list : call.liveAfter live (.ok .null) = live.erase address) :
    Returns (Heap.release address) heap fun _ after => Effect call live heap after (.ok .null) := by
  rcases permitted with rfl | member
  · exact release_null_effect sound describes members list
  · obtain ⟨offset, size, held, rfl⟩ := (members address).mp member
    refine (Heap.release_becomes describes held).mono fun _ after becomes => ?_
    exact effect_of_released sound describes members becomes about list

theorem answers_of_release {address : Address} (permitted : address = .null ∨ address ∈ live)
    (runs : call.run = do
      Heap.release address
      return .ok .null)
    (about : call.target = address)
    (list : call.liveAfter live (.ok .null) = live.erase address) : Answers call live heap := by
  left
  rw [runs]
  exact (release_effect sound describes members permitted about list).bind fun _ _ effect =>
    Returns.pure effect

theorem answers_of_write (address : Address) (index : Nat) (bytes : ByteArray)
    (permitted : address = .null ∨ address ∈ live) :
    Answers (.write address index bytes) live heap := by
  left
  unfold Call.run
  rcases permitted with rfl | member
  · refine (Heap.writePayload_null describes index bytes).bind fun _ after same => Returns.pure ?_
    exact effect_of_same sound describes members same rfl null_of_answer nofun
  · obtain ⟨offset, size, held, rfl⟩ := (members address).mp member
    refine (Heap.writePayload_returns describes held index bytes).bind ?_
    rintro length after ⟨-, writes, -⟩
    exact Returns.pure (effect_of_writes sound describes members held writes rfl rfl)

theorem answers_of_fill (address : Address) (byte : UInt8)
    (permitted : address = .null ∨ address ∈ live) : Answers (.fill address byte) live heap := by
  left
  unfold Call.run
  rcases permitted with rfl | member
  · refine (Heap.fillPayload_null describes byte).bind fun _ after same => Returns.pure ?_
    exact effect_of_same sound describes members same rfl null_of_answer nofun
  · obtain ⟨offset, size, held, rfl⟩ := (members address).mp member
    refine (Heap.fillPayload_returns describes held byte).bind ?_
    rintro length after ⟨-, writes, -⟩
    exact Returns.pure (effect_of_writes sound describes members held writes rfl rfl)

omit describes members in
theorem answers_of_reset : Answers .reset live heap := by
  refine .inl ((reset_returns_emptied sound.roomy).mono ?_)
  rintro _ after ⟨rfl, emptied⟩
  refine ⟨sound_of_emptied (emptied.roomy sound.roomy) emptied, ?_, ?_, nofun,
    emptied.config, emptied.capacity, emptied.backing, fun different => absurd rfl different⟩
  · exact fun different => absurd rfl different
  · rintro address answered present
    exact (absent_of_empty null_of_answer answered present).elim

end Cases

/-- A permitted call of a heap that keeps its invariant has its effect or halts. -/
theorem answers_of_sound (sound : Sound heap live) (permitted : call.Permitted live) :
    Answers call live heap := by
  obtain ⟨layout, describes, members⟩ := sound.layout
  cases call with
  | allocate size =>
    exact answers_of_allocate sound describes members rfl (fun _ => rfl) fun _ => rfl
  | zeroAllocate count size => exact answers_of_zeroAllocate sound describes members count size
  | resize address size =>
    -- Without a size this is a release, and without an address an allocation.
    rcases Nat.eq_zero_or_pos size with rfl | positive
    · exact answers_of_release sound describes members permitted rfl rfl rfl
    · rcases permitted with rfl | member
      · have same : live.erase .null = live := List.erase_of_not_mem sound.not_null
        exact answers_of_allocate sound describes members (Heap.resize_null positive heap)
          (fun moved => congrArg (Call.handOut · moved) same) fun _ => rfl
      · exact answers_of_resize sound describes members positive member
  | release address => exact answers_of_release sound describes members permitted rfl rfl rfl
  | reset => exact answers_of_reset sound
  | write address index bytes =>
    exact answers_of_write sound describes members address index bytes permitted
  | fill address byte => exact answers_of_fill sound describes members address byte permitted

theorem acts_of_sound (sound : Sound heap live) (permitted : call.Permitted live) :
    Acts call live heap :=
  (answers_of_sound sound permitted).acts

theorem effect_of_run {after : Heap} {answer : Except AllocError Address} (sound : Sound heap live)
    (permitted : call.Permitted live) (run : call.run heap = .ok answer after) :
    Effect call live heap after answer := by
  rcases acts_of_sound sound permitted with returns | ⟨fault, stops, -⟩
  · exact returns.of_run run
  · cases run.symm.trans stops

/-- Every heap that can be reached keeps the invariant. -/
theorem Reachable.sound (reachable : Reachable heap live) : Sound heap live := by
  -- A run is followed call by call; a call that faults is no step of it.
  induction reachable with
  | built built =>
    obtain ⟨roomy, emptied⟩ := Heap.new_spec built
    exact sound_of_emptied roomy emptied
  | step _ permitted run ih => exact (effect_of_run ih permitted run).sound

/-- A heap never has less room than for its first chunk. -/
theorem Reachable.floor (reachable : Reachable heap live) :
    16 + heap.config.chunkSize ≤ heap.arena.hi := by
  induction reachable with
  | built built =>
    obtain ⟨-, -, top, config, -⟩ := Heap.new_spec built
    rw [top, config]
  | @step heap after live call answer reachable permitted run ih =>
    have effect := effect_of_run reachable.sound permitted run
    rw [effect.config]
    by_cases reset : call = .reset
    · subst reset
      obtain ⟨-, emptied⟩ := (reset_returns_emptied reachable.sound.roomy).of_run run
      rw [emptied.top]
    · exact ih.trans (effect.higher reset)

/-- In every state that a heap can reach the validator passes, and the blocks and lists are as the
invariant says. No permitted call stops in a check of the heap's own there: it answers, or its block
is too large for a machine word or for a buffer. -/
theorem reachable_valid (reachable : Reachable heap live) :
    heap.validate = .ok (.ok ()) ∧ WellFormed heap.arena heap.lists
      ∧ ∀ call : Call, call.Permitted live →
        (∃ answer after, call.run heap = .ok answer after)
          ∨ ∃ fault, call.run heap = .error fault heap ∧ Heap.Stops call.size heap fault := by
  have sound := reachable.sound
  refine ⟨validate_of_wellFormed sound.wellFormed, sound.wellFormed, fun call permitted => ?_⟩
  refine (acts_of_sound sound permitted).imp_left ?_
  rintro ⟨answer, after, run, -⟩
  exact ⟨answer, after, run⟩

/-- While the arena has room to grow by a chunk, a run can go on with an allocation. -/
theorem Reachable.allocate (reachable : Reachable heap live) (size : Nat) (positive : 0 < size)
    (room : heap.arena.hi + max (blockSize size) heap.config.chunkSize ≤ heap.arena.capacity)
    (small : heap.arena.capacity ≤ Arena.bufferLimit) :
    ∃ address after, Heap.allocate size heap = .ok (.ok address) after
      ∧ Reachable after (address :: live) ∧ after.config = heap.config
      ∧ after.arena.capacity = heap.arena.capacity
      ∧ after.arena.hi ≤ heap.arena.hi + max (blockSize size) heap.config.chunkSize := by
  obtain ⟨roomy, -, layout, describes, -⟩ := reachable.sound
  obtain ⟨_, after, run, offset, rfl, higher, gains⟩ :=
    Heap.allocate_of_room describes roomy positive room small
  have permitted : (Call.allocate size).Permitted live := .inl rfl
  have next := reachable.step permitted run
  rw [Call.liveAfter, Call.handOut_payload] at next
  exact ⟨⟨offset + 8⟩, after, run, next, gains.preserves.config, gains.preserves.capacity, higher⟩

/-- With that room a run can go on with a resize, too. -/
theorem Reachable.resize (reachable : Reachable heap live) {address : Address}
    (member : address ∈ live) (size : Nat) (positive : 0 < size)
    (room : heap.arena.hi + max (blockSize size) heap.config.chunkSize ≤ heap.arena.capacity)
    (small : heap.arena.capacity ≤ Arena.bufferLimit) :
    ∃ offset after, Heap.resize address size heap = .ok (.ok ⟨offset + 8⟩) after := by
  obtain ⟨roomy, -, layout, describes, members⟩ := reachable.sound
  obtain ⟨offset, old, held, rfl⟩ := (members address).mp member
  obtain ⟨_, middle, run, start, rfl, -, gains⟩ :=
    Heap.allocate_of_room describes roomy positive room small
  obtain ⟨_, after, moves, rfl, -⟩ := Heap.resize_of_gains describes held positive run gains
  exact ⟨_, after, moves⟩

/-- With that room a run can go on with an allocation of zeros, too. -/
theorem Reachable.zeroAllocate (reachable : Reachable heap live) (count size : Nat)
    (positive : 0 < count * size)
    (room : heap.arena.hi + max (blockSize (count * size)) heap.config.chunkSize
      ≤ heap.arena.capacity)
    (small : heap.arena.capacity ≤ Arena.bufferLimit) :
    ∃ offset after, Heap.zeroAllocate count size heap = .ok (.ok ⟨offset + 8⟩) after := by
  obtain ⟨roomy, -, layout, describes, -⟩ := reachable.sound
  obtain ⟨_, middle, run, start, rfl, -, gains⟩ :=
    Heap.allocate_of_room describes roomy positive room small
  have bounds := blockSize_bounds (count * size)
  have below := heap.arena.capacity_lt
  obtain ⟨_, after, clears, rfl, -⟩ := Heap.zeroAllocate_of_gains (by omega) run gains
  exact ⟨_, after, clears⟩

/-- A heap can be built in a buffer of 64 KiB. -/
theorem exists_fresh : ∃ heap : Heap, Reachable heap [] ∧ heap.config = {}
    ∧ heap.arena.capacity = 65536 ∧ heap.arena.hi = 4112 := by
  have roomy : (Heap.unbuilt (.buffer 65536) {}).Roomy := by
    constructor <;> decide
  obtain ⟨heap, built, -, top, config, capacity, -⟩ := Heap.new_of_roomy rfl roomy
  exact ⟨heap, .built built, config, capacity, top⟩

/-- A heap of 64 KiB meets two small requests and has room left for more. -/
theorem exists_run_with_room : ∃ (empty one two : Heap) (first second : Address),
    (Reachable empty [] ∧ Heap.allocate 100 empty = .ok (.ok first) one ∧ Reachable one [first]
      ∧ one.config = {} ∧ Heap.allocate 200 one = .ok (.ok second) two
      ∧ Reachable two [second, first])
    ∧ two.config = {} ∧ two.arena.capacity = 65536 ∧ two.arena.hi ≤ 12304 := by
  obtain ⟨empty, built, config, capacity, top⟩ := exists_fresh
  have chunk : empty.config.chunkSize = 4096 := by rw [config]
  have limit : 65536 ≤ Arena.bufferLimit := by decide
  have sizes : max (blockSize 100) 4096 = 4096 ∧ max (blockSize 200) 4096 = 4096 := by decide
  obtain ⟨first, one, run, reachable, kept, same, higher⟩ :=
    built.allocate 100 (by decide) (by omega) (by omega)
  have again : one.config.chunkSize = 4096 := by rw [kept, chunk]
  obtain ⟨second, two, rerun, further, tuned, spacious, above⟩ :=
    reachable.allocate 200 (by decide) (by omega) (by omega)
  exact ⟨empty, one, two, first, second, ⟨built, run, reachable, kept.trans config, rerun, further⟩,
    tuned.trans (kept.trans config), by omega, by omega⟩

/-- A heap of 64 KiB meets two small requests. -/
theorem exists_run : ∃ (empty one two : Heap) (first second : Address), Reachable empty []
    ∧ Heap.allocate 100 empty = .ok (.ok first) one ∧ Reachable one [first] ∧ one.config = {}
    ∧ Heap.allocate 200 one = .ok (.ok second) two ∧ Reachable two [second, first] := by
  obtain ⟨empty, one, two, first, second, run, -⟩ := exists_run_with_room
  exact ⟨empty, one, two, first, second, run⟩

/-- A heap with two live addresses keeps its invariant. -/
theorem reachable_valid_of_two : ∃ (heap : Heap) (first second : Address),
    Reachable heap [second, first] ∧ heap.validate = .ok (.ok ())
      ∧ WellFormed heap.arena heap.lists := by
  obtain ⟨-, -, heap, first, second, -, -, -, -, -, reachable⟩ := exists_run
  obtain ⟨valid, wellFormed, -⟩ := reachable_valid reachable
  exact ⟨heap, first, second, reachable, valid, wellFormed⟩

end BoundaryTag
