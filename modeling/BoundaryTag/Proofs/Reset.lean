import BoundaryTag.Proofs.Growth

/-!
# Emptied heaps

A reset puts the two sentinels side by side, which the empty layout describes, and then grows that
heap by a chunk. Whether this succeeds depends on the configuration and the arena only, so a heap
that could be built can be reset at any time.
-/
namespace BoundaryTag

open Validator (Entry)

/-- The chunk size of a configuration that a heap can work with is a block size. -/
theorem Config.chunkSize_of_valid {config : Config} (valid : config.validate = .ok ()) :
    config.chunkSize % 16 = 0 ∧ 16 ≤ config.chunkSize := by
  have aligned : ¬(config.chunkSize = 0 ∨ config.chunkSize % alignment ≠ 0) := by
    intro wrong
    rw [validate, if_pos wrong] at valid
    cases valid
  rw [alignment_eq] at aligned
  omega

/-- A reset brings the break back to zero. A mapping holds on to its bytes. -/
theorem Arena.reset_returns (arena : Arena) :
    Returns reset arena fun _ after =>
      after.hi = 0 ∧ after.capacity = arena.capacity ∧ after.backing = arena.backing
        ∧ (arena.backing = .mapping →
          ∀ position, after.byte position = arena.byte position) := by
  obtain ⟨backing, capacity, hi, store, lower, below, zero⟩ := arena
  cases backing with
  | buffer => exact .of_eq rfl ⟨rfl, rfl, rfl, nofun⟩
  | mapping => exact .of_eq rfl ⟨rfl, rfl, rfl, fun _ _ => rfl⟩

/-- Two sentinels side by side are a heap without blocks. -/
theorem Layout.describes_empty {arena : Arena} (top : arena.hi = 16)
    (prologue : (Entry.make 0 0 true true false).Stored arena)
    (epilogue : Entry.prologue.Stored arena) :
    Layout.Describes ⟨[], fun _ => []⟩ arena .empty := by
  have low : arena.word 0 = (Entry.make 0 0 true true false).header.toWord := prologue.header
  have last : arena.epilogue = Entry.prologue := by
    have place : arena.hi - 8 = Entry.prologue.offset := by rw [top]; rfl
    rw [Arena.epilogue, place, epilogue.header, Header.ofWord_toWord]
  constructor
  · refine ⟨by omega, ?_, ?_, ?_, by simp, by simp, by simp⟩
    · rw [low, Header.ofWord_toWord]
      rfl
    · rw [last]
      rfl
    · rw [last]
      exact List.isChain_pair.mpr ⟨rfl, rfl, rfl, fun free => absurd free (by decide)⟩
  · exact ⟨FreeLists.head_empty, fun _ => trivial, fun _ => List.nodup_nil, by simp⟩

namespace Heap

variable {heap : Heap}

def addChunk (chunkSize : Nat) : HeapM (Except AllocError Unit) := do
  match ← extend chunkSize with
  | .error error => return .error error
  | .ok _ =>
    record (.initialised chunkSize (← readArena fun arena => pure arena.capacity))
    return .ok ()

/-- A reset adds the first chunk to a heap without blocks. -/
theorem reset_eq_addChunk (room : 16 ≤ heap.arena.capacity) :
    ∃ bare : Heap, reset heap = addChunk heap.config.chunkSize bare
      ∧ Layout.Describes ⟨[], fun _ => []⟩ bare.arena bare.lists ∧ bare.arena.hi = 16
      ∧ bare.config = heap.config ∧ bare.arena.capacity = heap.arena.capacity
      ∧ bare.arena.backing = heap.arena.backing := by
  obtain ⟨⟨⟩, emptied, clears, low, capacity, backing, -⟩ := Arena.reset_returns heap.arena
  have fits : emptied.hi + 16 ≤ emptied.capacity := by omega
  have small : ¬(emptied.backing = .buffer ∧ Arena.bufferLimit < emptied.hi + 16) := by
    rw [low]
    exact fun large => absurd large.2 (by decide)
  obtain ⟨_, raised, grows, rfl, top, spacious, kind, -⟩ := Arena.grow_returns fits small
  rw [low, Nat.zero_add] at top
  rw [low] at grows
  have opening : (Entry.make 0 0 true true false).offset + 8 ≤ raised.hi := by rw [top]; decide
  obtain ⟨⟨⟩, opened, opens, first, prologue⟩ :=
    Block.writeAllocated_returns (.make 0 0 true true false) rfl rfl opening (by decide)
  have closing : Entry.prologue.offset + 8 ≤ opened.hi := by rw [first.hi, top]; decide
  obtain ⟨⟨⟩, closed, closes, second, epilogue⟩ :=
    Block.writeAllocated_returns Entry.prologue rfl rfl closing (by decide)
  -- The two sentinels are words side by side, so the second one leaves the first one alone.
  have kept : (Entry.make 0 0 true true false).Stored closed := by
    refine prologue.confined second fun position left right => ?_
    have below : position < 8 := (Entry.area_of_tag left).2
    have above : 8 ≤ position := (Entry.area_of_tag right).1
    omega
  have step {Result : Type} {action : ArenaM Result} {before after : Arena} {result : Result}
      (run : action before = .ok result after) :
      onArena action { heap with arena := before, lists := .empty } =
        .ok result { heap with arena := after, lists := .empty } := onArena_of_ok run
  have run : reset heap =
      addChunk heap.config.chunkSize { heap with arena := closed, lists := .empty } := by
    unfold reset
    rw [bind_of_ok (onArena_of_ok clears)]
    refine (bind_of_ok rfl).trans ((bind_of_ok (step grows)).trans ?_)
    -- The grown arena starts at its bottom, so the heap starts where it has to.
    refine (bind_of_ok rfl).trans ((bind_of_ok rfl).trans ?_)
    refine (bind_of_ok (step opens)).trans ((bind_of_ok (step closes)).trans ?_)
    exact bind_of_ok rfl
  have hi : closed.hi = 16 := by rw [second.hi, first.hi, top]
  refine ⟨_, run, Layout.describes_empty hi kept epilogue, hi, rfl, ?_, ?_⟩
  · rw [second.capacity, first.capacity, spacious, capacity]
  · rw [second.backing, first.backing, kind, backing]

/-- The first chunk of a heap is a block size and fits into the arena. -/
structure Roomy (heap : Heap) : Prop where
  multiple : heap.config.chunkSize % 16 = 0
  real : 16 ≤ heap.config.chunkSize
  fits : 16 + heap.config.chunkSize ≤ heap.arena.capacity
  small : ¬(heap.arena.backing = .buffer ∧ Arena.bufferLimit < 16 + heap.config.chunkSize)

theorem Roomy.congr {after : Heap} (roomy : heap.Roomy) (config : after.config = heap.config)
    (capacity : after.arena.capacity = heap.arena.capacity)
    (backing : after.arena.backing = heap.arena.backing) : after.Roomy := by
  obtain ⟨multiple, real, fits, small⟩ := roomy
  constructor
  · rw [config]
    exact multiple
  · rw [config]
    exact real
  · rw [config, capacity]
    exact fits
  · rw [config, backing]
    exact small

/-- The heap holds nothing but its first chunk, and is tuned and made as before. -/
structure Emptied (before after : Heap) : Prop where
  layout : ∃ layout : Layout, layout.Describes after.arena after.lists
    ∧ (∀ offset size, ¬Held layout.blocks offset size)
    ∧ layout.chains = Chains.joining (fun _ => []) [] 8 before.config.chunkSize []
  top : after.arena.hi = 16 + before.config.chunkSize
  config : after.config = before.config
  capacity : after.arena.capacity = before.arena.capacity
  backing : after.arena.backing = before.arena.backing

theorem Emptied.roomy {after : Heap} (emptied : Emptied heap after) (roomy : heap.Roomy) :
    after.Roomy :=
  roomy.congr emptied.config emptied.capacity emptied.backing

theorem reset_returns (roomy : heap.Roomy) :
    Returns reset heap fun result after => result = .ok () ∧ Emptied heap after := by
  obtain ⟨multiple, real, fits, small⟩ := roomy
  obtain ⟨bare, run, describes, top, config, capacity, backing⟩ :=
    reset_eq_addChunk (show 16 ≤ heap.arena.capacity by omega)
  have below := heap.arena.capacity_lt
  -- The first chunk is a growth like any other, from a heap without blocks.
  have chunk := extend_returns describes multiple real (by omega) (by omega)
    (by rw [backing, top]; exact small)
  unfold Returns
  rw [run]
  unfold addChunk
  refine chunk.bind ?_
  rintro _ after ⟨layout, joined, described, held, listed, -, -, -, -, -, rfl, higher, preserves⟩
  rw [top] at listed
  refine Returns.step (readArena_of_ok rfl) ?_
  refine (record_returns _).bind ?_
  rintro ⟨⟩ noted ⟨same, arena, lists⟩
  refine Returns.pure ⟨rfl, ⟨layout, ?_, ?_, listed⟩, ?_, ?_, ?_, ?_⟩
  · rw [arena, lists]
    exact described
  · exact fun offset size holds => held_nil offset size ((held offset size).mp holds)
  · rw [arena, higher, top]
  · rw [same, preserves.config, config]
  · rw [arena, preserves.capacity, capacity]
  · rw [arena, preserves.backing, backing]

theorem reset_of_tight (tight : ¬16 ≤ heap.arena.capacity) :
    Returns reset heap fun result _ => result ≠ .ok () := by
  obtain ⟨⟨⟩, emptied, clears, low, capacity, -⟩ := Arena.reset_returns heap.arena
  have beyond : ¬emptied.hi + 16 ≤ emptied.capacity := by omega
  have grows : onArena (Arena.grow (2 * wordSize))
      { heap with arena := emptied, lists := .empty } = _ :=
    onArena_of_ok (Arena.grow_of_exhausted beyond)
  unfold reset
  refine Returns.step (onArena_of_ok clears) ?_
  refine Returns.step rfl ?_
  refine Returns.step grows ?_
  exact Returns.pure nofun

theorem roomy_of_reset {after : Heap} (multiple : heap.config.chunkSize % 16 = 0)
    (real : 16 ≤ heap.config.chunkSize) (succeeds : reset heap = .ok (.ok ()) after) :
    heap.Roomy := by
  have room : 16 ≤ heap.arena.capacity := by
    by_contra tight
    obtain ⟨result, other, fails, different⟩ := reset_of_tight tight
    rw [succeeds] at fails
    cases fails
    exact different rfl
  -- Whatever makes the heap less than roomy makes the growth by the first chunk fail.
  obtain ⟨bare, run, -, top, -, capacity, backing⟩ := reset_eq_addChunk room
  obtain ⟨result, middle, grown, rest⟩ := exists_of_bind (run.symm.trans succeeds)
  cases result with
  | error => cases rest
  | ok =>
    obtain ⟨-, fits, small⟩ := room_of_extend multiple grown
    rw [top] at fits small
    rw [capacity] at fits
    rw [backing] at small
    exact ⟨multiple, real, fits, small⟩

theorem build_eq (heap : Heap) :
    build heap = match heap.config.validate with
      | .error error => .ok (.error (.config error)) heap
      | .ok () => reset heap := by
  have read : reading (fun heap : Heap => pure heap.config.validate) heap =
      .ok heap.config.validate heap := rfl
  unfold build
  rw [bind_of_ok read]
  cases heap.config.validate with
  | error error => rfl
  | ok => rfl

theorem new_eq_ok_iff {arena : Arena} {config : Config} :
    new arena config = .ok (.ok heap) ↔ build (unbuilt arena config) = .ok (.ok ()) heap := by
  rw [new, EStateM.run]
  constructor
  · intro built
    split at built
    next run =>
      cases built
      exact run
    next => cases built
    next => cases built
  · intro run
    rw [run]

/-- A heap can be built with a configuration that it can work with, in an arena with room for the
first chunk. -/
theorem new_of_roomy {arena : Arena} {config : Config} (valid : config.validate = .ok ())
    (roomy : (unbuilt arena config).Roomy) :
    ∃ heap, new arena config = .ok (.ok heap) ∧ Emptied (unbuilt arena config) heap := by
  have accepted : (unbuilt arena config).config.validate = .ok () := valid
  obtain ⟨_, heap, run, rfl, emptied⟩ := reset_returns roomy
  refine ⟨heap, new_eq_ok_iff.mpr ?_, emptied⟩
  rw [build_eq, accepted]
  exact run

/-- What has been built holds nothing, and there was room for its first chunk. -/
theorem new_spec {arena : Arena} {config : Config} (built : new arena config = .ok (.ok heap)) :
    heap.Roomy ∧ Emptied (unbuilt arena config) heap := by
  have succeeds := new_eq_ok_iff.mp built
  rw [build_eq] at succeeds
  cases valid : config.validate with
  | error error =>
    have refused : (unbuilt arena config).config.validate = .error error := valid
    rw [refused] at succeeds
    cases succeeds
  | ok =>
    have accepted : (unbuilt arena config).config.validate = .ok () := valid
    rw [accepted] at succeeds
    obtain ⟨multiple, real⟩ := Config.chunkSize_of_valid valid
    -- A reset that succeeds shows that the arena has room for one.
    have roomy : (unbuilt arena config).Roomy := roomy_of_reset multiple real succeeds
    obtain ⟨result, after, run, -, emptied⟩ := reset_returns roomy
    cases succeeds.symm.trans run
    exact ⟨emptied.roomy roomy, emptied⟩

end Heap

end BoundaryTag
