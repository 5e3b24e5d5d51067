import BoundaryTag.Heap.Basic

/-!
# Running readers and writers

`Returns` is total correctness of a writer: from a given state it ends without a fault, and its
answer and the state it leaves satisfy a postcondition. A writer is stepped through one action at a
time, by the rules below for each way in which actions are put together. `Yields` says less: what
the answers can be, from whichever state.
-/
namespace BoundaryTag

/-- The action ends without a fault, in an answer and a state that satisfy a postcondition. -/
def Returns {State Result : Type} (action : EStateM Fault State Result) (state : State)
    (post : Result → State → Prop) : Prop :=
  ∃ result after, action state = .ok result after ∧ post result after

section Rules

variable {State Result Next : Type} {action : EStateM Fault State Result} {state : State}

theorem Returns.of_eq {result : Result} {after : State} {post : Result → State → Prop}
    (run : action state = .ok result after) (holds : post result after) :
    Returns action state post :=
  ⟨result, after, run, holds⟩

theorem Returns.of_run {result : Result} {after : State} {post : Result → State → Prop}
    (returns : Returns action state post) (run : action state = .ok result after) :
    post result after := by
  obtain ⟨answer, final, ends, holds⟩ := returns
  cases run.symm.trans ends
  exact holds

theorem Returns.ne_error {fault : Fault} {after : State} {post : Result → State → Prop}
    (returns : Returns action state post) : action state ≠ .error fault after := by
  obtain ⟨answer, final, ends, -⟩ := returns
  rw [ends]
  nofun

theorem Returns.pure {result : Result} {post : Result → State → Prop} (holds : post result state) :
    Returns (pure result) state post :=
  ⟨result, state, rfl, holds⟩

/-- Two actions in a row: what the first leaves is what the second starts from. -/
theorem Returns.bind {next : Result → EStateM Fault State Next} {middle : Result → State → Prop}
    {post : Next → State → Prop} (first : Returns action state middle)
    (second : ∀ result after, middle result after → Returns (next result) after post) :
    Returns (action >>= next) state post := by
  obtain ⟨result, after, run, holds⟩ := first
  obtain ⟨answer, final, rest, done⟩ := second result after holds
  refine ⟨answer, final, ?_, done⟩
  simp only [Bind.bind, EStateM.bind, run]
  exact rest

theorem Returns.mono {post weaker : Result → State → Prop} (returns : Returns action state post)
    (weaken : ∀ result after, post result after → weaker result after) :
    Returns action state weaker := by
  obtain ⟨result, after, run, holds⟩ := returns
  exact ⟨result, after, run, weaken result after holds⟩

/-- An action whose outcome is known goes before the rest. -/
theorem bind_of_ok {next : Result → EStateM Fault State Next} {result : Result} {after : State}
    (run : action state = .ok result after) : (action >>= next) state = next result after := by
  simp only [Bind.bind, EStateM.bind, run]

/-- An action that faults leaves nothing for the rest to do. -/
theorem bind_of_error {next : Result → EStateM Fault State Next} {fault : Fault} {after : State}
    (run : action state = .error fault after) : (action >>= next) state = .error fault after := by
  simp only [Bind.bind, EStateM.bind, run]

/-- Two actions in a row that end without a fault have both done so. -/
theorem exists_of_bind {next : Result → EStateM Fault State Next} {answer : Next} {final : State}
    (run : (action >>= next) state = .ok answer final) :
    ∃ result after, action state = .ok result after ∧ next result after = .ok answer final := by
  cases first : action state with
  | ok result after => exact ⟨result, after, rfl, (bind_of_ok first).symm.trans run⟩
  | error fault after => cases (bind_of_error first).symm.trans run

theorem Returns.step {next : Result → EStateM Fault State Next} {post : Next → State → Prop}
    {result : Result} {after : State} (run : action state = .ok result after)
    (rest : Returns (next result) after post) : Returns (action >>= next) state post := by
  obtain ⟨answer, final, ends, done⟩ := rest
  exact ⟨answer, final, (bind_of_ok run).trans ends, done⟩

theorem reading_of_ok {read : State → Except Fault Result} {result : Result}
    (answers : read state = .ok result) : reading read state = .ok result state := by
  simp only [reading, answers]

theorem reading_of_error {read : State → Except Fault Result} {fault : Fault}
    (answers : read state = .error fault) : reading read state = .error fault state := by
  simp only [reading, answers]

theorem lift_of_ok {check : Except Fault Result} {result : Result} (answers : check = .ok result) :
    (liftM check : EStateM Fault State Result) state = .ok result state :=
  reading_of_ok answers

theorem lift_of_error {check : Except Fault Result} {fault : Fault}
    (answers : check = .error fault) :
    (liftM check : EStateM Fault State Result) state = .error fault state :=
  reading_of_error answers

/-- Whenever the action ends without a fault, its answer has a property. -/
def Yields {State Result : Type} (action : EStateM Fault State Result) (post : Result → Prop) :
    Prop :=
  ∀ state result after, action state = .ok result after → post result

theorem Yields.pure {result : Result} {post : Result → Prop} (holds : post result) :
    Yields (pure result : EStateM Fault State Result) post := by
  intro _ _ _ run
  cases run
  exact holds

theorem Yields.bind {next : Result → EStateM Fault State Next} {middle : Result → Prop}
    {post : Next → Prop} (first : Yields action middle)
    (second : ∀ result, middle result → Yields (next result) post) :
    Yields (action >>= next) post := by
  intro state answer final run
  obtain ⟨result, after, begins, rest⟩ := exists_of_bind run
  exact second result (first _ _ _ begins) _ _ _ rest

/-- What the first action answers does not always matter. -/
theorem Yields.after {next : Result → EStateM Fault State Next} {post : Next → Prop}
    (second : ∀ result, Yields (next result) post) : Yields (action >>= next) post := by
  have any : Yields action fun _ => True := fun _ _ _ _ => trivial
  exact any.bind fun result _ => second result

/-- What a check answers goes on to the rest. -/
theorem Yields.lift {check : Except Fault Result} {next : Result → EStateM Fault State Next}
    {post : Next → Prop} (second : ∀ result, check = .ok result → Yields (next result) post) :
    Yields (liftM check >>= next) post := by
  have answered : Yields (liftM check : EStateM Fault State Result) (check = .ok ·) := by
    intro state result after run
    cases answers : check with
    | ok answer =>
      cases (lift_of_ok answers).symm.trans run
      rfl
    | error fault => cases (lift_of_error answers).symm.trans run
  exact answered.bind second

end Rules

theorem ensure_of_true {condition : Bool} (fault : Fault) (holds : condition = true) :
    ensure condition fault = .ok () :=
  if_pos holds

namespace Heap

variable {heap : Heap}

theorem readArena_of_ok {Result : Type} {read : Arena → Except Fault Result} {result : Result}
    (answers : read heap.arena = .ok result) : readArena read heap = .ok result heap :=
  reading_of_ok answers

/-- What changes the arena only leaves the rest of the heap as it is. -/
theorem onArena_of_ok {Result : Type} {action : ArenaM Result} {result : Result} {after : Arena}
    (run : action heap.arena = .ok result after) :
    onArena action heap = .ok result { heap with arena := after } := by
  simp only [onArena, run]

theorem onLists_of_ok {action : FreeLists → ArenaM FreeLists} {lists : FreeLists} {after : Arena}
    (run : action heap.lists heap.arena = .ok lists after) :
    onLists action heap = .ok () { heap with arena := after, lists } := by
  simp only [onLists, run]

theorem record_ok (event : Event) :
    record event heap = .ok () { heap with journal := heap.journal.push event } := rfl

end Heap

end BoundaryTag
