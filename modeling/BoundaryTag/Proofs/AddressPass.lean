import BoundaryTag.Proofs.Layout

/-!
# The address pass of the validator

A check passes when it finds no violation. The rules for sequences of checks turn the address pass
into a conjunction, block by block, and that conjunction is `Tiling`: the pass answers a list of
blocks exactly when this list tiles the arena.
-/
namespace BoundaryTag.Validator

/-- The check finds no violation and answers. -/
def Passes {Result : Type} (check : Check Result) (answer : Result) : Prop :=
  check.run = .ok (.ok answer)

section Rules

variable {Result Next : Type}

theorem passes_pure_iff (result answer : Result) :
    Passes (pure result) answer ↔ result = answer := by
  unfold Passes
  simp [ExceptT.run, pure, ExceptT.pure, ExceptT.mk, Except.pure]

theorem passes_bind_iff (check : Check Result) (next : Result → Check Next) (answer : Next) :
    Passes (check >>= next) answer ↔
      ∃ middle, Passes check middle ∧ Passes (next middle) answer := by
  unfold Passes ExceptT.run
  simp only [bind, ExceptT.bind, ExceptT.mk, Except.bind, ExceptT.bindCont]
  cases (check : Except Fault (Except Violation Result)) with
  | error fault => simp
  | ok outcome =>
    cases outcome with
    | error violation => simp [pure, Except.pure]
    | ok result => simp

theorem passes_then_iff (check : Check Unit) (next : Check Next) (answer : Next) :
    Passes (do check; next) answer ↔ Passes check () ∧ Passes next answer := by
  rw [passes_bind_iff]
  constructor
  · rintro ⟨⟨⟩, first, second⟩
    exact ⟨first, second⟩
  · rintro ⟨first, second⟩
    exact ⟨(), first, second⟩

theorem passes_require_iff (condition : Bool) (violation : Violation) (answer : Unit) :
    Passes (require condition violation) answer ↔ condition = true := by
  unfold require Passes
  cases condition <;>
    simp [ExceptT.run, pure, ExceptT.pure, ExceptT.mk, Except.pure, throw, throwThe,
      MonadExceptOf.throw]

theorem not_passes_throw (violation : Violation) (answer : Result) :
    ¬Passes (throw violation) answer := by
  unfold Passes
  simp [ExceptT.run, pure, ExceptT.mk, Except.pure, throw, throwThe, MonadExceptOf.throw]

theorem passes_unless_iff (bad : Prop) [Decidable bad] (violation : Violation)
    (rest : Check Result) (answer : Result) :
    Passes (if _ : bad then throw violation else rest) answer ↔ ¬bad ∧ Passes rest answer := by
  by_cases holds : bad
  · simp [holds, not_passes_throw]
  · simp [holds]

theorem passes_lift_iff (read : Except Fault Result) (answer : Result) :
    Passes (liftM read) answer ↔ read = .ok answer := by
  unfold Passes
  cases read <;>
    simp [ExceptT.run, liftM, monadLift, MonadLift.monadLift, ExceptT.lift, ExceptT.mk,
      Functor.map, Except.map]

end Rules

variable {arena : Arena}

theorem headerAt_of_le (offset : Nat) (inside : offset + 8 ≤ arena.hi) :
    headerAt arena offset = Header.ofWord (arena.word offset) := by
  rw [headerAt, Arena.readWord?_of_le arena offset inside]
  rfl

theorem checkFlags_passes_iff (previous : Option Entry) (current : Entry) :
    Passes (checkFlags previous current) () ↔
      current.header.prevAllocated = (previous.getD Entry.prologue).header.allocated
        ∧ current.header.prevMinimal = ((previous.getD Entry.prologue).size == 16) := by
  unfold checkFlags
  simp only [passes_bind_iff, passes_require_iff, beq_iff_eq]
  cases previous with
  | none => simp [Entry.prologue, Entry.make, Entry.size, Header.size]
  | some previous => simp [Entry.size]

theorem checkNeighbour_passes_iff (previous : Option Entry) (offset : Nat) :
    Passes (checkNeighbour previous offset) () ↔ ¬(previous.getD Entry.prologue).IsFree := by
  cases previous with
  | none => simp [checkNeighbour, passes_pure_iff, Entry.IsFree, Entry.prologue, Entry.make]
  | some previous => simp [checkNeighbour, passes_require_iff, Entry.IsFree]

theorem checkFooter_passes_iff (current : Entry) :
    Passes (checkFooter arena current) () ↔
      (32 ≤ current.size → headerAt arena (current.stop - 8) = current.header) := by
  rw [checkFooter, passes_require_iff, Bool.or_eq_true, decide_eq_true_eq, beq_iff_eq,
    ← Nat.not_le, ← imp_iff_not_or]
  rfl

theorem checkFree_passes_iff (previous : Option Entry) (current : Entry) :
    Passes (checkFree arena previous current) () ↔
      ((previous.getD Entry.prologue).IsFree → ¬current.IsFree)
        ∧ (current.IsFree → 32 ≤ current.size →
          headerAt arena (current.stop - 8) = current.header) := by
  unfold checkFree
  by_cases free : current.IsFree
  · have opened : (!current.header.allocated) = true := by
      rw [free]
      rfl
    rw [if_pos opened, passes_then_iff, checkNeighbour_passes_iff, checkFooter_passes_iff]
    simp only [free, not_true, imp_false, true_implies]
  · have closed : ¬(!current.header.allocated) = true := by
      simpa [Entry.IsFree] using free
    rw [if_neg closed, passes_pure_iff]
    simp [free]

/-- A block from one offset on with what stands there as its header is stored if its footer is. -/
theorem stored_iff (entry : Entry) (header : entry.header = headerAt arena entry.offset)
    (inside : entry.offset + 8 ≤ arena.hi) (ends : entry.stop ≤ arena.hi) :
    entry.Stored arena ↔ (entry.IsFree → 32 ≤ entry.size →
      headerAt arena (entry.stop - 8) = entry.header) := by
  rw [headerAt_of_le entry.offset inside] at header
  have place (large : 32 ≤ entry.size) : entry.stop - 8 + 8 ≤ arena.hi := by
    unfold Entry.stop at *
    omega
  constructor
  · intro stored free large
    rw [headerAt_of_le _ (place large), stored.footer free large, Header.ofWord_toWord]
  · intro footer
    refine ⟨by rw [header, Header.toWord_ofWord], fun free large => ?_⟩
    rw [← footer free large, headerAt_of_le _ (place large), Header.toWord_ofWord]

/-- What the address pass demands of a block by itself. -/
def Sound (arena : Arena) (entry : Entry) : Prop :=
  16 ≤ entry.size ∧ entry.header.reserved = false ∧ entry.Stored arena

theorem checkBlocksFrom_step (epilogue : Nat) (previous : Option Entry) (offset : Nat)
    (blocks : List Entry) (current : Entry) (here : current = ⟨offset, headerAt arena offset⟩) :
    Passes (checkBlocksFrom arena epilogue previous offset) blocks ↔
      Passes (checkFlags previous current) () ∧
        if offset = epilogue then blocks = []
        else ∃ rest, blocks = current :: rest ∧ current.header.reserved = false
          ∧ 16 ≤ current.size ∧ (offset + 8) % 16 = 0 ∧ current.stop ≤ epilogue
          ∧ Passes (checkFree arena previous current) ()
          ∧ Passes (checkBlocksFrom arena epilogue (some current) current.stop) rest := by
  rw [checkBlocksFrom, ← here, passes_then_iff]
  refine and_congr_right fun _ => ?_
  subst here
  split
  · rw [passes_pure_iff, eq_comm]
  · rw [passes_then_iff, passes_require_iff, passes_unless_iff, passes_then_iff,
      passes_require_iff, passes_unless_iff, passes_then_iff, passes_bind_iff]
    simp only [passes_pure_iff, Bool.not_eq_true', beq_iff_eq, Nat.not_lt]
    constructor
    · rintro ⟨clear, real, aligned, fits, free, rest, passes, rfl⟩
      exact ⟨rest, rfl, clear, real, aligned, fits, free, passes⟩
    · rintro ⟨rest, rfl, clear, real, aligned, fits, free, passes⟩
      exact ⟨clear, real, aligned, fits, free, rest, passes, rfl⟩

/-- From a block on, the pass answers the blocks that continue the chain up to the epilogue. The
induction is on these blocks; the pass takes as many steps. -/
theorem checkBlocksFrom_passes_iff (blocks : List Entry) (previous : Option Entry) (offset : Nat)
    (low : offset + 8 ≤ arena.hi) (aligned : offset % 16 = 8)
    (place : (previous.getD Entry.prologue).stop = offset)
    (sentinel : arena.epilogue.header.isSentinel = true) :
    Passes (checkBlocksFrom arena (arena.hi - 8) previous offset) blocks ↔
      (previous.getD Entry.prologue :: blocks ++ [arena.epilogue]).IsChain Adjoins
        ∧ ∀ entry ∈ blocks, Sound arena entry := by
  obtain ⟨-, closed⟩ := Entry.of_sentinel sentinel
  induction blocks generalizing previous offset with
  | nil =>
    rw [checkBlocksFrom_step _ _ _ _ _ rfl, checkFlags_passes_iff]
    constructor
    · rintro ⟨flags, answers⟩
      split at answers
      next last =>
        -- The pass has arrived at the epilogue, whose flags it has checked like those of a block.
        have here : arena.epilogue = ⟨offset, headerAt arena offset⟩ := by
          rw [headerAt_of_le offset low, last]
          rfl
        rw [← here] at flags
        refine ⟨List.isChain_pair.mpr ⟨?_, flags.1, flags.2, fun _ => closed⟩, nofun⟩
        rw [here, place]
      next => obtain ⟨rest, impossible, -⟩ := answers; cases impossible
    · rintro ⟨chain, -⟩
      have adjoins := List.isChain_pair.mp chain
      have last : arena.hi - 8 = offset := adjoins.place.trans place
      have here : arena.epilogue = ⟨offset, headerAt arena offset⟩ := by
        rw [headerAt_of_le offset low, ← last]
        rfl
      rw [← here, if_pos last.symm]
      exact ⟨⟨adjoins.prevAllocated, adjoins.prevMinimal⟩, rfl⟩
  | cons entry rest ih =>
    obtain ⟨current, here⟩ : ∃ current : Entry, current = ⟨offset, headerAt arena offset⟩ :=
      ⟨_, rfl⟩
    have start : current.offset = offset := by rw [here]
    have read : current.header = headerAt arena current.offset := by rw [here]
    have width := current.size_mod
    have ends : current.stop = offset + current.size := by rw [Entry.stop, start]
    rw [checkBlocksFrom_step _ _ _ _ current here, checkFlags_passes_iff, checkFree_passes_iff]
    constructor
    · rintro ⟨flags, answers⟩
      split at answers
      next => cases answers
      next more =>
        obtain ⟨tail, same, reserved, real, -, fits, ⟨separated, footer⟩, passes⟩ := answers
        obtain ⟨rfl, rfl⟩ := List.cons.inj same
        have stored := (stored_iff entry read (by omega) (by omega)).mpr footer
        obtain ⟨chain, sound⟩ :=
          (ih (some entry) entry.stop (by omega) (by omega) rfl).mp passes
        refine ⟨List.isChain_cons_cons.mpr ⟨⟨?_, flags.1, flags.2, separated⟩, chain⟩, ?_⟩
        · rw [start, place]
        · rintro other (_ | ⟨_, later⟩)
          · exact ⟨real, reserved, stored⟩
          · exact sound other later
    · rintro ⟨chain, sound⟩
      obtain ⟨adjoins, chain⟩ := List.isChain_cons_cons.mp chain
      obtain ⟨real, reserved, stored⟩ := sound entry List.mem_cons_self
      -- The header that is read there is the stored one, so the pass meets this very block.
      have first : entry.offset = offset := adjoins.place.trans place
      have same : entry = current := by
        have header := stored.header
        rw [first, ← Header.toWord_ofWord (arena.word offset), Header.toWord_inj] at header
        rw [here, headerAt_of_le offset low, header, ← first]
      subst same
      -- All of the chain lies before the epilogue.
      have before := List.pairwise_cons.mp (before_of_chain _ chain)
      have fits : entry.stop ≤ arena.hi - 8 := before.1 arena.epilogue (by simp)
      have footer := (stored_iff entry read (by omega) (by omega)).mp stored
      refine ⟨⟨adjoins.prevAllocated, adjoins.prevMinimal⟩, ?_⟩
      rw [if_neg (by omega)]
      refine ⟨rest, rfl, reserved, real, by omega, fits, ⟨adjoins.separated, footer⟩, ?_⟩
      refine (ih (some entry) entry.stop (by omega) (by omega) rfl).mpr ⟨chain, ?_⟩
      exact fun other later => sound other (List.mem_cons_of_mem _ later)

/-- The address pass accepts an arena exactly if blocks tile it, and then answers these blocks. -/
theorem checkBlocks_passes_iff (blocks : List Entry) :
    Passes (checkBlocks arena) blocks ↔ Tiling arena blocks := by
  rw [checkBlocks, passes_then_iff, passes_then_iff, passes_then_iff, passes_require_iff,
    passes_require_iff, passes_require_iff, decide_eq_true_eq]
  have sentinels (room : 16 ≤ arena.hi) : headerAt arena 0 = Header.ofWord (arena.word 0)
      ∧ headerAt arena (arena.hi - 8) = arena.epilogue.header :=
    ⟨headerAt_of_le 0 (by omega), headerAt_of_le (arena.hi - 8) (by omega)⟩
  constructor
  · rintro ⟨room, prologue, epilogue, passes⟩
    obtain ⟨first, last⟩ := sentinels room
    rw [first] at prologue
    rw [wordSize_eq, last] at epilogue
    change 16 ≤ arena.hi at room
    obtain ⟨chain, sound⟩ :=
      (checkBlocksFrom_passes_iff blocks none 8 room rfl rfl epilogue).mp passes
    refine ⟨room, prologue, epilogue, chain, ?_, ?_, ?_⟩
    · exact fun entry member => (sound entry member).1
    · exact fun entry member => (sound entry member).2.1
    · exact fun entry member => (sound entry member).2.2
  · intro tiling
    obtain ⟨first, last⟩ := sentinels tiling.room
    refine ⟨tiling.room, first ▸ tiling.prologue, last ▸ tiling.epilogue, ?_⟩
    refine (checkBlocksFrom_passes_iff blocks none 8 tiling.room rfl rfl tiling.epilogue).mpr ?_
    refine ⟨tiling.chain, fun entry member => ⟨?_, ?_, ?_⟩⟩
    · exact tiling.real entry member
    · exact tiling.reserved entry member
    · exact tiling.stored entry member

end BoundaryTag.Validator
