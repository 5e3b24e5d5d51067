import BoundaryTag.Proofs.Lockstep

/-!
# Fresh starts

A heap that has been reset, and a heap built in an arena that has been used before, hold one free
chunk and nothing else. Whatever bytes their arenas still hold, they are twins of a heap built in a
clean arena of the same capacity, and twins can be asked for anything, again and again: the answers,
the blocks and the lists are always the same.
-/
namespace BoundaryTag

open Validator (Entry)

/-! ## Conversations with a heap -/

/-- A heap is asked for some calls one after the other, each of which it permits, and gives some
answers. The addresses are those that are live before and after. -/
inductive Conversation : Heap → List Address → List Call → List (Except AllocError Address) →
    Heap → List Address → Prop
  | silence {heap : Heap} {live : List Address} : Conversation heap live [] [] heap live
  | exchange {heap middle after : Heap} {live gone : List Address} {call : Call}
      {calls : List Call} {answer : Except AllocError Address}
      {answers : List (Except AllocError Address)} (permitted : call.Permitted live)
      (run : call.run heap = .ok answer middle)
      (rest : Conversation middle (call.liveAfter live answer) calls answers after gone) :
      Conversation heap live (call :: calls) (answer :: answers) after gone

/-- What a heap shows of itself: its break, its blocks and its lists. -/
structure Heap.LooksLike (left right : Heap) : Prop where
  hi : left.arena.hi = right.arena.hi
  blocks : left.blocks = right.blocks
  heads : ∀ bucket, left.lists.head bucket = right.lists.head bucket
  members : ∀ bucket,
    left.lists.members left.arena bucket = right.lists.members right.arena bucket

/-- Whatever a heap is asked for while nothing is live, another heap gives the same answers and
looks the same afterwards, and it would fault at the same calls. -/
def Heap.EchoedBy (left right : Heap) : Prop :=
  ∀ calls answers after live, Conversation left [] calls answers after live →
    ∃ other, Conversation right [] calls answers other live ∧ after.LooksLike other
      ∧ ∀ call : Call, call.Permitted live → ∀ fault,
        (∃ stopped, call.run after = .error fault stopped) ↔
          ∃ stopped, call.run other = .error fault stopped

/-- A heap that is one free chunk between the sentinels, alone on the list of its class. -/
structure Heap.IsFresh (heap : Heap) : Prop where
  top : heap.arena.hi = heap.config.chunkSize + 16
  block : ∃ view, heap.blocks = .ok [view]
    ∧ view.outline = ⟨8, heap.config.chunkSize, false, true, false⟩
  lists : ∀ bucket, heap.lists.members heap.arena bucket =
    .ok (if bucket = Bucket.classify heap.config.chunkSize then [⟨8⟩] else [])
  valid : heap.validate = .ok (.ok ())

variable {left right first second : Heap} {live gone : List Address} {call : Call}
  {layout : Layout}

/-! ## Twins echo each other -/

namespace Heap

/-- What touches no byte leaves twins. -/
theorem onArena_tandem_of_none {action : ArenaM Unit} {touched : Nat → Prop}
    {post : Unit → Arena → Prop} (twins : Twins layout left right)
    (none : ∀ position, ¬touched position)
    (returns : ∀ arena, Returns action arena fun answer after =>
      Arena.Confined touched arena after ∧ post answer after) :
    Tandem (onArena action) left right fun _ first second => Twins layout first second := by
  apply Tandem.of_returns (onArena_returns (returns left.arena))
    (onArena_returns (returns right.arena))
  intro _ first _ second ⟨only, confined, _⟩ ⟨otherOnly, otherConfined, _⟩
  have config : first.config = left.config := by rw [only]
  have lists : first.lists = left.lists := by rw [only]
  have otherConfig : second.config = right.config := by rw [otherOnly]
  have otherLists : second.lists = right.lists := by rw [otherOnly]
  have apart {position : Nat} {away : Prop} (inside : touched position) : away :=
    absurd inside (none position)
  have describes := twins.describes.confined confined fun _ => apart
  have described := twins.otherDescribes.confined otherConfined fun _ => apart
  rw [← lists] at describes
  rw [← otherLists] at described
  have top := otherConfined.hi.trans (twins.hi.trans confined.hi.symm)
  exact ⟨rfl, twins.advance ⟨config, confined.capacity, confined.backing⟩
    ⟨otherConfig, otherConfined.capacity, otherConfined.backing⟩ describes described top
    (fun _ _ => Iff.rfl) rfl⟩

theorem reading_payloadSize_null (heap : Heap) :
    reading (fun heap : Heap => heap.payloadSize .null) heap = .ok 0 heap :=
  reading_of_ok (payloadSize_null heap)

theorem writePayload_tandem {offset size : Nat} (twins : Twins layout left right)
    (held : Held layout.blocks offset size) (index : Nat) (bytes : ByteArray) :
    Tandem (writePayload ⟨offset + 8⟩ index bytes) left right AreTwins := by
  apply Tandem.of_returns (writePayload_returns twins.describes held index bytes)
    (writePayload_returns twins.otherDescribes held index bytes)
  intro length first other second ⟨same, writes, _⟩ ⟨also, rewrites, _⟩
  exact ⟨also.trans same.symm, layout, twins.write_both held writes rewrites⟩

theorem fillPayload_tandem {offset size : Nat} (twins : Twins layout left right)
    (held : Held layout.blocks offset size) (byte : UInt8) :
    Tandem (fillPayload ⟨offset + 8⟩ byte) left right AreTwins := by
  apply Tandem.of_returns (fillPayload_returns twins.describes held byte)
    (fillPayload_returns twins.otherDescribes held byte)
  intro length first other second ⟨same, writes, _⟩ ⟨also, rewrites, _⟩
  exact ⟨also.trans same.symm, layout, twins.write_both held writes rewrites⟩

theorem writePayload_null_tandem (twins : Twins layout left right) (index : Nat)
    (bytes : ByteArray) : Tandem (writePayload .null index bytes) left right AreTwins := by
  have none (position : Nat) : ¬Span (0 + min index 0)
      (0 + min index 0 + min bytes.size (0 - min index 0)) position := by
    unfold Span
    omega
  apply Tandem.step (reading_payloadSize_null left) (reading_payloadSize_null right)
  have writes (arena : Arena) := Arena.writeBytes_returns arena (0 + min index 0)
    (min bytes.size (0 - min index 0)) (Bytes.get bytes) (by omega)
  apply (onArena_tandem_of_none twins none writes).bind
  intro _ first second written
  exact .pure ⟨layout, written⟩

theorem fillPayload_null_tandem (twins : Twins layout left right) (byte : UInt8) :
    Tandem (fillPayload .null byte) left right AreTwins := by
  have none (position : Nat) : ¬Span 0 (0 + 0) position := by
    unfold Span
    omega
  apply Tandem.step (reading_payloadSize_null left) (reading_payloadSize_null right)
  have fills (arena : Arena) := Arena.fillBytes_returns arena 0 0 byte (Nat.zero_le _)
  apply (onArena_tandem_of_none twins none fills).bind
  intro _ first second filled
  exact .pure ⟨layout, filled⟩

end Heap

/-- A permitted write answers the same on twins and leaves twins. -/
theorem Call.tandem_of_write (twins : Heap.Twins layout left right)
    (members : ∀ address, address ∈ live ↔ Owned (Held layout.blocks) address)
    (permitted : call.Permitted live) (writes : call.IsWrite) :
    Tandem call.run left right Heap.AreTwins := by
  cases call with
  | write address index bytes =>
    have written : Tandem (Heap.writePayload address index bytes) left right Heap.AreTwins := by
      rcases permitted with null | member
      · obtain rfl : address = .null := null
        exact Heap.writePayload_null_tandem twins index bytes
      · obtain ⟨offset, size, held, about⟩ := (members _).mp member
        obtain rfl : address = ⟨offset + 8⟩ := about
        exact Heap.writePayload_tandem twins held index bytes
    exact written.bind fun _ _ _ after => .pure after
  | fill address byte =>
    have filled : Tandem (Heap.fillPayload address byte) left right Heap.AreTwins := by
      rcases permitted with null | member
      · obtain rfl : address = .null := null
        exact Heap.fillPayload_null_tandem twins byte
      · obtain ⟨offset, size, held, about⟩ := (members _).mp member
        obtain rfl : address = ⟨offset + 8⟩ := about
        exact Heap.fillPayload_tandem twins held byte
    exact filled.bind fun _ _ _ after => .pure after
  | allocate | zeroAllocate | resize | release | reset => exact writes.elim

/-- Every permitted call answers the same on twins and leaves twins. -/
theorem Sound.tandem (sound : Sound left live) (twins : Heap.Twins layout left right)
    (permitted : call.Permitted live) : Tandem call.run left right Heap.AreTwins := by
  have members := sound.members_iff twins.describes
  by_cases writes : call.IsWrite
  · exact Call.tandem_of_write twins members permitted writes
  · exact Call.tandem twins members permitted writes

theorem Heap.Twins.looksLike (twins : Heap.Twins layout left right) : left.LooksLike right where
  hi := twins.hi.symm
  blocks := twins.blocks_eq
  heads bucket := by rw [twins.describes.listing.heads, twins.otherDescribes.listing.heads]
  members := twins.members_eq

/-- A conversation with one of two twins can be had with the other one. The induction is on the
calls; between any two of them the heaps are twins. -/
theorem Conversation.twin {calls : List Call} {answers : List (Except AllocError Address)}
    (conversation : Conversation left live calls answers first gone) (sound : Sound left live)
    (twins : Heap.Twins layout left right) :
    ∃ second, Conversation right live calls answers second gone ∧ Sound first gone
      ∧ Heap.AreTwins () first second := by
  induction conversation generalizing right layout with
  | silence => exact ⟨right, .silence, sound, layout, twins⟩
  | exchange permitted run _ ih =>
    rcases sound.tandem twins permitted with
      ⟨result, one, two, runs, reruns, others, next⟩ | ⟨fault, one, two, fails, -⟩
    · cases run.symm.trans runs
      obtain ⟨second, also, later⟩ := ih (effect_of_run sound permitted run).sound next
      exact ⟨second, .exchange permitted reruns also, later⟩
    · cases run.symm.trans fails

theorem Heap.Twins.echoedBy (twins : Heap.Twins layout left right) (sound : Sound left []) :
    left.EchoedBy right := by
  intro calls answers after live conversation
  obtain ⟨other, also, later, others, next⟩ := conversation.twin sound twins
  refine ⟨other, also, next.looksLike, fun call permitted fault => ?_⟩
  rcases later.tandem next permitted with
    ⟨result, one, two, run, rerun, -⟩ | ⟨reason, one, two, fails, also⟩
  · simp [run, rerun]
  · simp [fails, also]

/-! ## Heaps that start over -/

namespace Heap

theorem Emptied.isFresh (emptied : Emptied left first) (roomy : left.Roomy) : first.IsFresh := by
  obtain ⟨⟨layout, describes, none, chains⟩, top, config, -, -⟩ := emptied
  have real := roomy.real
  constructor
  · rw [top, config, Nat.add_comm]
  · obtain ⟨view, walk, outline⟩ := blocks_of_unheld describes (by omega) none
    refine ⟨view, walk, ?_⟩
    rw [outline, top, config, Nat.add_sub_cancel_left]
  · intro bucket
    have alone : layout.chains bucket =
        if bucket = Bucket.classify left.config.chunkSize then [8] else [] := by
      simp [chains, Chains.joining, Chains.push, joinedSize, joinedStart, lastFree, firstFree]
    rw [describes.members, alone, config]
    split <;> rfl
  · exact validate_of_wellFormed ⟨layout, describes⟩

/-- Where a heap can be built, a heap can be built in every arena of the same capacity. -/
theorem Roomy.of_capacity {clean dirty : Arena} {config : Config}
    (roomy : (unbuilt clean config).Roomy) (capacity : dirty.capacity = clean.capacity)
    (alike : clean.GrowsLike dirty) : (unbuilt dirty config).Roomy := by
  obtain ⟨multiple, real, fits, small⟩ := roomy
  refine ⟨multiple, real, capacity ▸ fits, fun large => ?_⟩
  rcases alike with same | limit
  · exact small ⟨same.symm.trans large.1, large.2⟩
  · have beyond := large.2
    simp only [unbuilt] at fits beyond
    omega

theorem valid_of_new {arena : Arena} {config : Config} (built : new arena config = .ok (.ok left)) :
    config.validate = .ok () := by
  cases valid : config.validate with
  | ok => rfl
  | error error =>
    have refused : (unbuilt arena config).config.validate = .error error := valid
    rw [new, EStateM.run, build_eq, refused] at built
    cases built

/-- Emptied heaps of one configuration and one capacity echo each other. -/
theorem Emptied.echoes {old older : Heap} (emptied : Emptied old left)
    (also : Emptied older right) (config : older.config = old.config)
    (capacity : older.arena.capacity = old.arena.capacity) (roomy : old.Roomy)
    (otherRoomy : older.Roomy) (alike : old.arena.GrowsLike older.arena) :
    left.EchoedBy right ∧ right.EchoedBy left := by
  obtain ⟨layout, twins⟩ :=
    twins_of_emptied emptied also config capacity alike roomy otherRoomy
  exact ⟨twins.echoedBy (sound_of_emptied (emptied.roomy roomy) emptied),
    twins.symm.echoedBy (sound_of_emptied (also.roomy otherRoomy) also)⟩

end Heap

/-- A heap has room for its first chunk after it has been emptied only if it had before. -/
theorem Heap.Emptied.roomy_before (emptied : Heap.Emptied left first) (roomy : first.Roomy) :
    left.Roomy :=
  roomy.congr emptied.config.symm emptied.capacity.symm emptied.backing.symm

/-- A reset of a reachable heap succeeds, and building a heap in a used arena succeeds wherever it
does in a clean one of the same capacity. Either way the heap is fresh, and from then on it cannot
be told from a heap newly built with the same configuration in an arena of the same capacity. -/
theorem starts_afresh :
    (∀ heap live, Reachable heap live →
      ∃ after, Heap.reset heap = .ok (.ok ()) after ∧ after.config = heap.config ∧ after.IsFresh
        ∧ ∀ (clean : Arena) (fresh : Heap), heap.arena.GrowsLike clean →
          clean.capacity = heap.arena.capacity → Heap.new clean heap.config = .ok (.ok fresh) →
            after.EchoedBy fresh ∧ fresh.EchoedBy after)
      ∧ ∀ (clean dirty : Arena) (config : Config) (fresh : Heap), clean.GrowsLike dirty →
        dirty.capacity = clean.capacity → Heap.new clean config = .ok (.ok fresh) →
          ∃ heap, Heap.new dirty config = .ok (.ok heap) ∧ heap.config = config ∧ heap.IsFresh
            ∧ heap.EchoedBy fresh ∧ fresh.EchoedBy heap := by
  constructor
  · intro heap live reachable
    have roomy := reachable.sound.roomy
    obtain ⟨_, after, run, rfl, emptied⟩ := Heap.reset_returns roomy
    refine ⟨after, run, emptied.config, emptied.isFresh roomy, ?_⟩
    intro clean fresh alike capacity built
    obtain ⟨spacious, also⟩ := Heap.new_spec built
    exact emptied.echoes also rfl capacity roomy (also.roomy_before spacious) alike
  · intro clean dirty config fresh alike capacity built
    obtain ⟨spacious, also⟩ := Heap.new_spec built
    have cleanRoomy := also.roomy_before spacious
    have roomy := cleanRoomy.of_capacity capacity alike
    obtain ⟨heap, again, emptied⟩ := Heap.new_of_roomy (Heap.valid_of_new built) roomy
    exact ⟨heap, again, emptied.config, emptied.isFresh roomy, emptied.echoes also rfl
      capacity.symm roomy cleanRoomy (alike.symm capacity)⟩

/-- A heap in a mapping that has been used and reset answers like a new heap in a buffer. -/
theorem starts_afresh_of_mapping : ∃ (used after fresh one two : Heap) (old address : Address),
    Reachable used [old] ∧ used.arena.backing = .mapping
      ∧ Heap.reset used = .ok (.ok ()) after ∧ after.IsFresh
      ∧ Heap.new (.buffer 65536) {} = .ok (.ok fresh)
      ∧ Heap.allocate 200 fresh = .ok (.ok address) one
      ∧ Heap.allocate 200 after = .ok (.ok address) two ∧ one.LooksLike two := by
  obtain ⟨mapped, -, kind, size⟩ : ∃ arena,
      Arena.mapping (.below 1048576 4096 "no room") 65536 = .ok (.ok arena)
        ∧ arena.backing = .mapping ∧ arena.capacity = 65536 := ⟨_, rfl, rfl, rfl⟩
  have roomy : (Heap.unbuilt (.buffer 65536) {}).Roomy := by
    constructor <;> decide
  have limit : 65536 ≤ Arena.bufferLimit := by decide
  obtain ⟨fresh, built, emptied⟩ := Heap.new_of_roomy rfl roomy
  obtain ⟨heap, begun, filled⟩ := Heap.new_of_roomy rfl (roomy.of_capacity size (.inr limit))
  have capacity : heap.arena.capacity = 65536 := filled.capacity.trans size
  -- The heap in the mapping meets a request before it is reset, the one in the buffer at once.
  obtain ⟨old, used, run, reachable, config, same, -⟩ := (Reachable.built begun).allocate 100
    (by decide) (by
      rw [filled.top, filled.config, capacity]
      change 16 + 4096 + max (blockSize 100) 4096 ≤ 65536
      decide) (by omega)
  obtain ⟨address, one, met, -⟩ := (Reachable.built built).allocate 200 (by decide)
    (by rw [emptied.top, emptied.config, emptied.capacity]; decide)
    (by rw [emptied.capacity]; decide)
  have permitted : (Call.allocate 100).Permitted [] := .inl rfl
  have effect := effect_of_run (Reachable.built begun).sound permitted run
  have backing : used.arena.backing = .mapping := effect.backing.trans (filled.backing.trans kind)
  have alike : used.arena.GrowsLike (.buffer 65536) := .inr (by omega)
  obtain ⟨after, reset, -, isFresh, echoes⟩ := starts_afresh.1 used [old] reachable
  have tuned : used.config = {} := config.trans filled.config
  rw [tuned] at echoes
  obtain ⟨-, echo⟩ := echoes (.buffer 65536) fresh alike (capacity.symm.trans same.symm) built
  have conversation : Conversation fresh [] [.allocate 200] [.ok address] one
      (Call.handOut [] address) := .exchange (.inl rfl) met .silence
  obtain ⟨two, again, alike, -⟩ := echo _ _ _ _ conversation
  cases again with
  | exchange _ answered rest =>
    cases rest
    exact ⟨used, after, fresh, one, two, old, address, reachable, backing, reset, isFresh, built,
      met, answered, alike⟩

end BoundaryTag
