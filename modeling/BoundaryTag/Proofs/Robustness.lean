import BoundaryTag.Heap.Basic
import BoundaryTag.Proofs.ListPass

/-!
# The validator on arenas that are not sound

Whatever the bytes of an arena are and wherever the heads of the lists lead, the validator comes to
an end. Its sums and differences stay within a machine word and its reads within the arena. The
address pass owes that to the bounds it checks before it uses them. The list pass reads blocks of
the census only, which have room for their links because the address pass has let them through.

The validator forms its offsets with the operations of natural numbers. `Wordwise` forms them with
those of machine words, which fault at the ends of the range, and turns out to be the same.
-/
namespace BoundaryTag

namespace Validator

/-! ## The passes on machine words -/

namespace Wordwise

/-- A free block that is large enough must have its header again as footer. -/
def checkFooter (arena : Arena) (current : Entry) : Check Unit := do
  if linkedBlockSize ≤ current.header.size then
    let footer ← subWord (← addWord current.offset current.header.size) wordSize
    require (headerAt arena footer == current.header) (.footerMismatch current.offset)

def checkFree (arena : Arena) (previous : Option Entry) (current : Entry) : Check Unit := do
  if !current.header.allocated then
    checkNeighbour previous current.offset
    checkFooter arena current

/-- A block that ends beyond the largest word ends beyond the epilogue. -/
def checkBlocksFrom (arena : Arena) (epilogue : Nat) (previous : Option Entry) (offset : Nat) :
    Check (List Entry) := do
  let header := headerAt arena offset
  checkFlags previous ⟨offset, header⟩
  if offset = epilogue then return []
  require (!header.reserved) (.reservedBits offset)
  if _ : header.size < minBlockSize then throw (.undersized offset header.size)
  else
    require ((← addWord offset wordSize) % alignment == 0) (.misaligned offset)
    match _ : addWord offset header.size with
    | .error _ => throw (.overrun offset header.size)
    | .ok stop =>
      if _ : epilogue < stop then throw (.overrun offset header.size)
      else
        checkFree arena previous ⟨offset, header⟩
        let rest ← checkBlocksFrom arena epilogue (some ⟨offset, header⟩) stop
        return ⟨offset, header⟩ :: rest
termination_by epilogue - offset
decreasing_by
  have positive : 0 < minBlockSize := by decide
  have sum : addWord offset header.size = .ok stop := by assumption
  have same := (addWord_ok_iff _ _ _).mp sum
  omega

def checkBlocks (arena : Arena) : Check (List Entry) := do
  require (2 * wordSize ≤ arena.hi) (.arenaTooSmall arena.hi)
  require (headerAt arena 0).isSentinel (.badPrologue 0)
  let epilogue ← subWord arena.hi wordSize
  require (headerAt arena epilogue).isSentinel (.badEpilogue epilogue)
  checkBlocksFrom arena epilogue none wordSize

def checkBackLink (arena : Arena) (bucket : Bucket) (previous : Option Nat) (offset : Nat) :
    Check Unit := do
  if FreeLists.isTwoWay bucket then
    let back ← arena.readWord (← addWord offset (2 * wordSize))
    match previous with
    | none => require (back == 0) (.headHasPrev bucket offset)
    | some previous => require (back == previous) (.brokenBackLink offset)

def checkChain (arena : Arena) (bucket : Bucket) (census : Census) (previous : Option Nat)
    (current : Option Block) : Check Census := do
  match current with
  | none => return census
  | some ⟨offset⟩ =>
    checkMember census bucket offset
    if _ : offset ∈ census.unlisted then
      checkBackLink arena bucket previous offset
      let next ← Block.linkAt (← addWord offset wordSize) arena
      checkChain arena bucket { census with unlisted := census.unlisted.erase offset }
        (some offset) next
    else throw (.duplicated offset)
termination_by census.unlisted.size
decreasing_by
  have met : offset ∈ census.unlisted := by assumption
  have positive : census.unlisted.size ≠ 0 :=
    fun empty => (Census.size_eq_zero_iff _).mp empty offset met
  simp only [Std.HashSet.size_erase, met, if_true]
  omega

def checkBuckets (arena : Arena) (lists : FreeLists) (buckets : List Bucket) (census : Census) :
    Check Census :=
  buckets.foldlM
    (fun census bucket => checkChain arena bucket census none (lists.head bucket)) census

def checkLists (arena : Arena) (lists : FreeLists) (blocks : List Entry) : Check Unit := do
  let census := Census.ofBlocks blocks
  let inHeap := census.unlisted.size
  let census ← checkBuckets arena lists Bucket.all census
  let missing := census.unlisted.size
  require (missing == 0) (.freeCountMismatch inHeap (inHeap - missing))

def check (arena : Arena) (lists : FreeLists) : Check Unit := do
  checkLists arena lists (← checkBlocks arena)

end Wordwise

/-! ## Checks that end -/

/-- Both checks end without a fault, and with the same answer or violation. -/
def Concur {Result : Type} (exact plain : Check Result) : Prop :=
  ∃ outcome, exact.run = .ok outcome ∧ plain.run = .ok outcome

section Rules

variable {Result Next : Type}

theorem concur_pure (result : Result) : Concur (pure result) (pure result) :=
  ⟨.ok result, rfl, rfl⟩

theorem concur_throw (violation : Violation) :
    Concur (throw violation : Check Result) (throw violation) :=
  ⟨.error violation, rfl, rfl⟩

theorem concur_require (condition : Bool) (violation : Violation) :
    Concur (require condition violation) (require condition violation) := by
  cases condition
  · exact concur_throw violation
  · exact concur_pure ()

theorem concur_lift {read : Except Fault Result} {result : Result} (reads : read = .ok result) :
    Concur (liftM read) (liftM read) := by
  subst reads
  exact concur_pure result

/-- What comes next only has to concur on an answer that the first checks give. -/
theorem Concur.bind {exact plain : Check Result} {exactNext plainNext : Result → Check Next}
    (first : Concur exact plain)
    (next : ∀ result, Passes plain result → Concur (exactNext result) (plainNext result)) :
    Concur (exact >>= exactNext) (plain >>= plainNext) := by
  obtain ⟨outcome, left, right⟩ := first
  cases outcome with
  | error violation =>
    refine ⟨.error violation, ?_, ?_⟩
    · exact congrArg (Except.bind · _) left
    · exact congrArg (Except.bind · _) right
  | ok result =>
    obtain ⟨final, exactEnds, plainEnds⟩ := next result right
    refine ⟨final, ?_, ?_⟩
    · exact (congrArg (Except.bind · _) left).trans exactEnds
    · exact (congrArg (Except.bind · _) right).trans plainEnds

theorem concur_then {exact plain : Check Unit} {exactNext plainNext : Check Next}
    (first : Concur exact plain) (next : Passes plain () → Concur exactNext plainNext) :
    Concur (do exact; exactNext) (do plain; plainNext) :=
  first.bind fun _ => next

theorem lift_bind_of_ok {read : Except Fault Result} {result : Result} (reads : read = .ok result)
    (next : Result → Check Next) : (liftM read >>= next : Check Next) = next result := by
  subst reads
  rfl

/-- A sum within the range of a machine word is the plain one. -/
theorem addWord_bind {left right : Nat} (below : left + right < wordLimit)
    (next : Nat → Check Next) :
    (liftM (addWord left right) >>= next : Check Next) = next (left + right) :=
  lift_bind_of_ok (addWord_of_lt left right below) next

theorem subWord_bind {left right : Nat} (below : right ≤ left) (next : Nat → Check Next) :
    (liftM (subWord left right) >>= next : Check Next) = next (left - right) :=
  lift_bind_of_ok (subWord_of_le left right below) next

end Rules

/-! ## The address pass -/

variable {arena : Arena}

theorem checkFlags_concurs (previous : Option Entry) (current : Entry) :
    Concur (checkFlags previous current) (checkFlags previous current) :=
  concur_then (concur_require _ _) fun _ => concur_require _ _

theorem checkNeighbour_concurs (previous : Option Entry) (offset : Nat) :
    Concur (checkNeighbour previous offset) (checkNeighbour previous offset) := by
  cases previous with
  | none => exact concur_pure ()
  | some previous => exact concur_require _ _

theorem checkFooter_concurs (current : Entry) (inside : current.stop ≤ arena.hi) :
    Concur (Wordwise.checkFooter arena current) (checkFooter arena current) := by
  have limit := arena.hi_lt
  have stop : current.offset + current.header.size ≤ arena.hi := inside
  unfold Wordwise.checkFooter checkFooter
  dsimp only
  by_cases large : linkedBlockSize ≤ current.header.size
  · have wide : 32 ≤ current.header.size := large
    rw [if_pos large, addWord_bind (by omega), subWord_bind (by rw [wordSize_eq]; omega),
      decide_eq_false (Nat.not_lt.mpr large), Bool.false_or]
    exact concur_require _ _
  · rw [if_neg large, decide_eq_true (Nat.not_le.mp large), Bool.true_or]
    exact concur_pure ()

theorem checkFree_concurs (previous : Option Entry) (current : Entry)
    (inside : current.stop ≤ arena.hi) :
    Concur (Wordwise.checkFree arena previous current) (checkFree arena previous current) := by
  unfold Wordwise.checkFree checkFree
  split
  · exact concur_then (checkNeighbour_concurs _ _) fun _ => checkFooter_concurs current inside
  · exact concur_pure ()

/-- The pass stays at or below the epilogue. The induction is on the pass itself. -/
theorem checkBlocksFrom_concurs (epilogue : Nat) (previous : Option Entry) (offset : Nat)
    (room : epilogue + 8 ≤ arena.hi) (low : offset ≤ epilogue) :
    Concur (Wordwise.checkBlocksFrom arena epilogue previous offset)
      (checkBlocksFrom arena epilogue previous offset) := by
  have limit := arena.hi_lt
  induction previous, offset using checkBlocksFrom.induct arena epilogue with
  | case1 previous offset header ih =>
    rw [Wordwise.checkBlocksFrom, checkBlocksFrom]
    refine concur_then (checkFlags_concurs _ _) fun _ => ?_
    split
    · exact concur_pure []
    refine concur_then (concur_require _ _) fun _ => ?_
    split
    · exact concur_throw _
    next real =>
      rw [addWord_bind (by rw [wordSize_eq]; omega)]
      refine concur_then (concur_require _ _) fun _ => ?_
      -- A sum beyond the largest word is beyond the epilogue too.
      split
      next fault sum =>
        have beyond : epilogue < offset + (headerAt arena offset).size := by
          by_contra within
          rw [addWord_of_lt _ _ (by omega)] at sum
          cases sum
        rw [dif_pos beyond]
        exact concur_throw _
      next stop sum =>
        obtain ⟨rfl, -⟩ := (addWord_ok_iff _ _ _).mp sum
        split
        · exact concur_throw _
        next within =>
          refine concur_then (checkFree_concurs _ _ ?_) fun _ => ?_
          · unfold Entry.stop Entry.size
            dsimp only
            omega
          · refine (ih real within (Nat.not_lt.mp within)).bind fun rest _ => concur_pure _

/-- The address pass ends, whatever the arena holds. -/
theorem checkBlocks_concurs (arena : Arena) :
    Concur (Wordwise.checkBlocks arena) (checkBlocks arena) := by
  unfold Wordwise.checkBlocks checkBlocks
  refine concur_then (concur_require _ _) fun wide => ?_
  refine concur_then (concur_require _ _) fun _ => ?_
  have room : 16 ≤ arena.hi := by
    rw [passes_require_iff, decide_eq_true_eq] at wide
    exact wide
  rw [subWord_bind (by rw [wordSize_eq]; omega)]
  refine concur_then (concur_require _ _) fun _ => ?_
  exact checkBlocksFrom_concurs _ _ _ (by rw [wordSize_eq]; omega) (by rw [wordSize_eq]; omega)

/-! ## The list pass -/

variable {bucket : Bucket} {census : Census}

theorem checkMember_concurs (census : Census) (bucket : Bucket) (offset : Nat) :
    Concur (checkMember census bucket offset) (checkMember census bucket offset) := by
  unfold checkMember
  cases census.headers[offset]? with
  | none => exact concur_throw _
  | some header => exact concur_then (concur_require _ _) fun _ => concur_require _ _

theorem checkBackLink_concurs (previous : Option Nat) (offset : Nat)
    (room : FreeLists.isTwoWay bucket = true → offset + 24 ≤ arena.hi) :
    Concur (Wordwise.checkBackLink arena bucket previous offset)
      (checkBackLink arena bucket previous offset) := by
  have limit := arena.hi_lt
  unfold Wordwise.checkBackLink checkBackLink
  split
  next twoWay =>
    have inside := room twoWay
    rw [addWord_bind (by rw [wordSize_eq]; omega)]
    refine (concur_lift (Arena.readWord_of_le arena _ ?_)).bind fun back _ => ?_
    · rw [wordSize_eq]
      omega
    · cases previous <;> exact concur_require _ _
  next => exact concur_pure ()

/-- The walk ends wherever the links lead. The induction is on the walk itself, which goes on while
there are blocks to cross off. -/
theorem checkChain_concurs (previous : Option Nat) (current : Option Block)
    (roomy : Roomy arena census) :
    Concur (Wordwise.checkChain arena bucket census previous current)
      (checkChain arena bucket census previous current) := by
  have limit := arena.hi_lt
  induction census, previous, current using checkChain.induct with
  | case1 census previous =>
    rw [Wordwise.checkChain, checkChain]
    exact concur_pure census
  | case2 census previous offset ih =>
    rw [Wordwise.checkChain, checkChain]
    refine concur_then (checkMember_concurs _ _ _) fun member => ?_
    -- What the census accepts has room for the links that are read.
    obtain ⟨-, near, far⟩ := roomy.bounds ((checkMember_passes_iff offset).mp member)
    split
    next met =>
      refine concur_then (checkBackLink_concurs previous offset far) fun _ => ?_
      have link : Block.linkAt (offset + wordSize) arena = .ok _ :=
        except_bind_of_ok (Arena.readWord_of_le arena _ (by rw [wordSize_eq]; omega))
      rw [addWord_bind (by rw [wordSize_eq]; omega)]
      exact (concur_lift link).bind fun next _ => ih met next roomy
    next => exact concur_throw _

theorem checkBuckets_concurs (lists : FreeLists) (buckets : List Bucket)
    (roomy : Roomy arena census) :
    Concur (Wordwise.checkBuckets arena lists buckets census)
      (checkBuckets arena lists buckets census) := by
  induction buckets generalizing census with
  | nil => exact concur_pure census
  | cons bucket rest ih =>
    refine (checkChain_concurs none (lists.head bucket) roomy).bind fun answer passes => ?_
    -- The blocks that the census knows are the same after a walk.
    obtain ⟨members, -, -, rfl⟩ := (checkChain_passes_iff _ _ roomy).mp passes
    exact ih roomy

theorem checkLists_concurs (lists : FreeLists) {blocks : List Entry}
    (tiling : Tiling arena blocks) :
    Concur (Wordwise.checkLists arena lists blocks) (checkLists arena lists blocks) :=
  (checkBuckets_concurs lists Bucket.all (roomy_ofBlocks tiling)).bind fun _ _ =>
    concur_require _ _

theorem check_concurs (arena : Arena) (lists : FreeLists) :
    Concur (Wordwise.check arena lists) (check arena lists) :=
  (checkBlocks_concurs arena).bind fun blocks passes =>
    checkLists_concurs lists ((checkBlocks_passes_iff blocks).mp passes)

end Validator

/-- The validator survives every arena and all heads of lists. It ends without a fault, with the
same outcome when all its sums and differences are checked, and a heap that looks at itself this
way changes nothing but its journal. -/
theorem validate_survives (arena : Arena) (lists : FreeLists) :
    ∃ outcome, validate arena lists = .ok outcome
      ∧ (Validator.Wordwise.check arena lists).run = .ok outcome
      ∧ ∀ config journal, ∃ events,
        Heap.check ⟨config, arena, lists, journal⟩ =
          .ok outcome.isOk ⟨config, arena, lists, journal ++ events⟩ := by
  obtain ⟨outcome, exact, plain⟩ := Validator.check_concurs arena lists
  refine ⟨outcome, plain, exact, fun config journal => ?_⟩
  have looks : reading Heap.validate ⟨config, arena, lists, journal⟩ =
      .ok outcome ⟨config, arena, lists, journal⟩ := reading_of_ok plain
  rcases outcome with violation | ⟨⟩
  · refine ⟨#[.checkFailed violation], ?_⟩
    rw [Heap.check, bind_of_ok looks]
    rfl
  · refine ⟨#[], ?_⟩
    rw [Heap.check, bind_of_ok looks]
    rfl

end BoundaryTag
