import BoundaryTag.Proofs.Memory
import BoundaryTag.Proofs.SizeClasses

/-!
# Intrusive free lists as plain lists

`Listed` says that the heads and the links in the arena spell out fifteen plain lists of blocks that
do not overlap. Making a block the head of its bucket puts it in front of the plain list, and taking
a member out erases it from there. Both write link slots only: those of the block itself and those
of its neighbours on the list.
-/
namespace BoundaryTag

/-- The members of every bucket, head first, by the offsets of their headers. -/
abbrev Chains := Bucket → List Nat

/-- The chains with a new head in one bucket. -/
def Chains.push (chains : Chains) (bucket : Bucket) (offset : Nat) : Chains :=
  fun other => if other = bucket then offset :: chains other else chains other

def Chains.drop (chains : Chains) (offset : Nat) : Chains :=
  fun bucket => (chains bucket).erase offset

namespace Arena

def sizeAt (arena : Arena) (offset : Nat) : Nat :=
  (Header.ofWord (arena.word offset)).size

/-- The bytes of a listed block that hold its links. -/
def LinkSlot (arena : Arena) (offset : Nat) : Nat → Prop :=
  Span (offset + 8) (offset + min (arena.sizeAt offset) 24)

/-- The bytes of a listed block that hold its header and its links. -/
def Kept (arena : Arena) (offset : Nat) : Nat → Prop :=
  Span offset (offset + min (arena.sizeAt offset) 24)

def Apart (arena : Arena) (left right : Nat) : Prop :=
  left + arena.sizeAt left ≤ right ∨ right + arena.sizeAt right ≤ left

/-- A block that can stand on the list of a bucket. -/
structure Listable (arena : Arena) (bucket : Bucket) (offset : Nat) : Prop where
  nonzero : offset ≠ 0
  real : 16 ≤ arena.sizeAt offset
  inside : offset + arena.sizeAt offset ≤ arena.hi
  classified : Bucket.classify (arena.sizeAt offset) = bucket

/-- Each member links to the next and the last one to `following`; in a bucket with backward links
each also links to the member before it and the first one to `previous`. Zero stands for no block.
-/
def Linked (arena : Arena) (twoWay : Bool) (previous : Nat) (members : List Nat)
    (following : Nat) : Prop :=
  match members with
  | [] => True
  | offset :: rest =>
    arena.word (offset + 8) = rest.head?.getD following
      ∧ (twoWay = true → arena.word (offset + 16) = previous)
      ∧ arena.Linked twoWay offset rest following

end Arena

/-- The heads and the links in an arena spell out given chains. -/
structure Listed (arena : Arena) (lists : FreeLists) (chains : Chains) : Prop where
  heads : ∀ bucket, lists.head bucket = (chains bucket).head?.map Block.mk
  links : ∀ bucket, arena.Linked (FreeLists.isTwoWay bucket) 0 (chains bucket) 0
  nodup : ∀ bucket, (chains bucket).Nodup
  listable : ∀ bucket, ∀ offset ∈ chains bucket, arena.Listable bucket offset
  apart : ∀ bucket other, ∀ left ∈ chains bucket, ∀ right ∈ chains other,
    left ≠ right → arena.Apart left right

namespace Arena

variable {arena after : Arena} {twoWay : Bool} {touched : Nat → Prop}

theorem linked_append (previous following : Nat) (left right : List Nat) :
    arena.Linked twoWay previous (left ++ right) following ↔
      arena.Linked twoWay previous left (right.head?.getD following) ∧
        arena.Linked twoWay (left.getLast?.getD previous) right following := by
  induction left generalizing previous with
  | nil => simp [Linked]
  | cons offset rest ih =>
    -- The last member of the left part is where the two parts are linked.
    have next : (rest ++ right).head?.getD following
        = rest.head?.getD (right.head?.getD following) := by
      cases rest <;> simp
    have last : (offset :: rest).getLast?.getD previous = rest.getLast?.getD offset := by
      rw [List.getLast?_cons, Option.getD_some]
    rw [List.cons_append, Linked, Linked, ih, next, last, and_assoc, and_assoc]

/-- A chain is the same in every arena with the same links. -/
theorem Linked.congr {previous following : Nat} {members : List Nat}
    (linked : arena.Linked twoWay previous members following)
    (forward : ∀ offset ∈ members, after.word (offset + 8) = arena.word (offset + 8))
    (backward : twoWay = true →
      ∀ offset ∈ members, after.word (offset + 16) = arena.word (offset + 16)) :
    after.Linked twoWay previous members following := by
  induction members generalizing previous with
  | nil => trivial
  | cons offset rest ih =>
    obtain ⟨next, back, tail⟩ := linked
    refine ⟨?_, ?_, ?_⟩
    · rw [forward offset List.mem_cons_self]
      exact next
    · intro both
      rw [backward both offset List.mem_cons_self]
      exact back both
    · exact ih tail (fun other member => forward other (List.mem_cons_of_mem _ member))
        (fun both other member => backward both other (List.mem_cons_of_mem _ member))

theorem Apart.symm {left right : Nat} (apart : arena.Apart left right) :
    arena.Apart right left := by
  unfold Apart at *
  omega

theorem sizeAt_congr {offset : Nat} (same : after.word offset = arena.word offset) :
    after.sizeAt offset = arena.sizeAt offset := by
  rw [sizeAt, sizeAt, same]

theorem Apart.congr {left right : Nat} (apart : arena.Apart left right)
    (leftSame : after.sizeAt left = arena.sizeAt left)
    (rightSame : after.sizeAt right = arena.sizeAt right) : after.Apart left right := by
  unfold Apart at *
  rw [leftSame, rightSame]
  exact apart

theorem Listable.large {bucket : Bucket} {offset : Nat} (listable : arena.Listable bucket offset)
    (twoWay : FreeLists.isTwoWay bucket = true) : 32 ≤ arena.sizeAt offset := by
  rw [← listable.classified] at twoWay
  exact (Bucket.isTwoWay_classify _).mp twoWay

theorem Listable.congr {bucket : Bucket} {offset : Nat} (listable : arena.Listable bucket offset)
    (sameBreak : after.hi = arena.hi) (same : after.sizeAt offset = arena.sizeAt offset) :
    after.Listable bucket offset where
  nonzero := listable.nonzero
  real := same ▸ listable.real
  inside := by rw [same, sameBreak]; exact listable.inside
  classified := same ▸ listable.classified

/-- A block whose header and links are left alone reads as before. -/
theorem Confined.kept (confined : Confined touched arena after) {offset : Nat}
    (real : 16 ≤ arena.sizeAt offset)
    (away : ∀ position, arena.Kept offset position → ¬touched position) :
    after.sizeAt offset = arena.sizeAt offset
      ∧ after.word (offset + 8) = arena.word (offset + 8)
      ∧ (32 ≤ arena.sizeAt offset → after.word (offset + 16) = arena.word (offset + 16)) := by
  have part (start : Nat) (low : offset ≤ start)
      (high : start + 8 ≤ offset + min (arena.sizeAt offset) 24) :
      after.word start = arena.word start := by
    apply confined.word
    intro position inside
    apply away
    unfold Span Kept at *
    unfold Span
    omega
  refine ⟨sizeAt_congr (part offset (by omega) (by omega)), part _ (by omega) (by omega), ?_⟩
  intro large
  exact part _ (by omega) (by omega)

/-- The forward links of some blocks and the backward links of some. -/
def LinksOf (forward backward : Nat → Prop) (position : Nat) : Prop :=
  (∃ offset, forward offset ∧ Span (offset + 8) (offset + 16) position)
    ∨ ∃ offset, backward offset ∧ Span (offset + 16) (offset + 24) position

/-- Links stand in the link slots of the blocks that have them. -/
theorem linkSlot_of_linksOf {blocks forward backward : Nat → Prop} {position : Nat}
    (ahead : ∀ offset, forward offset → blocks offset ∧ 16 ≤ arena.sizeAt offset)
    (behind : ∀ offset, backward offset → blocks offset ∧ 32 ≤ arena.sizeAt offset)
    (slot : LinksOf forward backward position) :
    ∃ offset, blocks offset ∧ arena.LinkSlot offset position := by
  rcases slot with ⟨offset, links, slot⟩ | ⟨offset, links, slot⟩
  · obtain ⟨block, real⟩ := ahead offset links
    refine ⟨offset, block, ?_⟩
    unfold LinkSlot Span at *
    omega
  · obtain ⟨block, large⟩ := behind offset links
    refine ⟨offset, block, ?_⟩
    unfold LinkSlot Span at *
    omega

/-- Blocks that do not overlap, of which some change their links. -/
structure Relinking (arena after : Arena) (blocks forward backward : Nat → Prop) : Prop where
  confined : Confined (LinksOf forward backward) arena after
  real : ∀ offset, blocks offset → 16 ≤ arena.sizeAt offset
  apart : ∀ left right, blocks left → blocks right → left ≠ right → arena.Apart left right
  forward_block : ∀ offset, forward offset → blocks offset
  backward_block : ∀ offset, backward offset → blocks offset ∧ 32 ≤ arena.sizeAt offset

namespace Relinking

variable {blocks forward backward : Nat → Prop} {offset : Nat}

/-- A word of one of the blocks can only change if it is a link of that very block. -/
theorem word (relinking : Relinking arena after blocks forward backward) (block : blocks offset)
    (start : Nat) (low : offset ≤ start) (high : start + 8 ≤ offset + arena.sizeAt offset)
    (notForward : forward offset → start + 8 ≤ offset + 8 ∨ offset + 16 ≤ start)
    (notBackward : backward offset → start + 8 ≤ offset + 16 ∨ offset + 24 ≤ start) :
    after.word start = arena.word start := by
  apply relinking.confined.word
  -- The link that changes belongs to this block, or to a block that does not overlap it.
  rintro position inside (⟨other, changes, slot⟩ | ⟨other, changes, slot⟩)
  · by_cases same : offset = other
    · subst same
      have clear := notForward changes
      unfold Span at *
      omega
    · have member := relinking.forward_block other changes
      have apart := relinking.apart offset other block member same
      have real := relinking.real other member
      unfold Apart Span at *
      omega
  · obtain ⟨member, large⟩ := relinking.backward_block other changes
    by_cases same : offset = other
    · subst same
      have clear := notBackward changes
      unfold Span at *
      omega
    · have apart := relinking.apart offset other block member same
      unfold Apart Span at *
      omega

theorem sizeAt (relinking : Relinking arena after blocks forward backward)
    (block : blocks offset) : after.sizeAt offset = arena.sizeAt offset := by
  have real := relinking.real offset block
  exact sizeAt_congr (relinking.word block offset (by omega) (by omega) (fun _ => by omega)
    (fun _ => by omega))

theorem forward_same (relinking : Relinking arena after blocks forward backward)
    (block : blocks offset) (stays : ¬forward offset) :
    after.word (offset + 8) = arena.word (offset + 8) := by
  have real := relinking.real offset block
  exact relinking.word block _ (by omega) (by omega) (fun changes => absurd changes stays)
    (fun _ => by omega)

theorem backward_same (relinking : Relinking arena after blocks forward backward)
    (block : blocks offset) (large : 32 ≤ arena.sizeAt offset) (stays : ¬backward offset) :
    after.word (offset + 16) = arena.word (offset + 16) :=
  relinking.word block _ (by omega) (by omega) (fun _ => by omega)
    (fun changes => absurd changes stays)

end Relinking

/-- Only the last member of a chain links to what follows the chain. -/
theorem Linked.retarget {previous following target : Nat} {members : List Nat}
    (linked : arena.Linked twoWay previous members following) (nodup : members.Nodup)
    (forward : ∀ offset ∈ members, members.getLast? ≠ some offset →
      after.word (offset + 8) = arena.word (offset + 8))
    (last : ∀ offset, members.getLast? = some offset → after.word (offset + 8) = target)
    (backward : twoWay = true →
      ∀ offset ∈ members, after.word (offset + 16) = arena.word (offset + 16)) :
    after.Linked twoWay previous members target := by
  rcases List.eq_nil_or_concat members with rfl | ⟨init, final, rfl⟩
  · trivial
  · rw [List.concat_eq_append] at *
    have fresh : final ∉ init := by
      intro member
      exact (List.nodup_append.mp nodup).2.2 final member final List.mem_cons_self rfl
    -- All but the last member keep their links; the last one changes its forward link only.
    obtain ⟨initial, -, back, -⟩ := (linked_append previous following init [final]).mp linked
    apply (linked_append previous target init [final]).mpr
    refine ⟨initial.congr ?_ ?_, last final (by simp), ?_, trivial⟩
    · intro offset member
      refine forward offset (List.mem_append_left _ member) ?_
      intro same
      simp only [List.getLast?_append, List.getLast?_singleton, Option.some_or,
        Option.some.injEq] at same
      exact fresh (same ▸ member)
    · intro both offset member
      exact backward both offset (List.mem_append_left _ member)
    · intro both
      rw [backward both final (by simp)]
      exact back both

/-- Only the first member of a chain links to what comes before the chain. -/
theorem Linked.repoint {previous following target : Nat} {members : List Nat}
    (linked : arena.Linked twoWay previous members following) (nodup : members.Nodup)
    (forward : ∀ offset ∈ members, after.word (offset + 8) = arena.word (offset + 8))
    (first : twoWay = true →
      ∀ offset, members.head? = some offset → after.word (offset + 16) = target)
    (backward : twoWay = true → ∀ offset ∈ members, members.head? ≠ some offset →
      after.word (offset + 16) = arena.word (offset + 16)) :
    after.Linked twoWay target members following := by
  cases members with
  | nil => trivial
  | cons head tail =>
    -- The rest of the chain keeps its links; the head changes its backward link only.
    obtain ⟨next, -, rest⟩ := linked
    have fresh : head ∉ tail := (List.nodup_cons.mp nodup).1
    refine ⟨?_, fun both => first both head rfl, rest.congr ?_ ?_⟩
    · rw [forward head List.mem_cons_self]
      exact next
    · intro offset member
      exact forward offset (List.mem_cons_of_mem _ member)
    · intro both offset member
      refine backward both offset (List.mem_cons_of_mem _ member) ?_
      intro same
      simp only [List.head?_cons, Option.some.injEq] at same
      exact fresh (same ▸ member)

/-- A chain closes up over a member that its neighbours link past. -/
theorem Linked.unlink {previous following offset : Nat} {before rest : List Nat}
    (linked : arena.Linked twoWay previous (before ++ offset :: rest) following)
    (nodup : (before ++ offset :: rest).Nodup)
    (forwards : ∀ member ∈ before ++ offset :: rest, before.getLast? ≠ some member →
      after.word (member + 8) = arena.word (member + 8))
    (backwards : twoWay = true → ∀ member ∈ before ++ offset :: rest, rest.head? ≠ some member →
      after.word (member + 16) = arena.word (member + 16))
    (forward : ∀ left, before.getLast? = some left →
      after.word (left + 8) = rest.head?.getD following)
    (backward : twoWay = true → ∀ right, rest.head? = some right →
      after.word (right + 16) = before.getLast?.getD previous) :
    after.Linked twoWay previous (before ++ rest) following := by
  obtain ⟨front, -, -, back⟩ := (linked_append previous following before _).mp linked
  obtain ⟨nodupBefore, nodupRest, disjoint⟩ := List.nodup_append.mp nodup
  apply (linked_append previous following before rest).mpr
  constructor
  · refine front.retarget nodupBefore ?_ forward ?_
    · intro member there
      exact forwards member (List.mem_append_left _ there)
    · intro both member there
      refine backwards both member (List.mem_append_left _ there) fun first => ?_
      exact disjoint member there member (List.mem_cons_of_mem _ (List.mem_of_head? first)) rfl
  · refine back.repoint (List.nodup_cons.mp nodupRest).2 ?_ backward ?_
    · intro member there
      have later := List.mem_cons_of_mem offset there
      refine forwards member (List.mem_append_right _ later) fun last => ?_
      exact disjoint member (List.mem_of_getLast? last) member later rfl
    · intro both member there
      exact backwards both member (List.mem_append_right _ (List.mem_cons_of_mem _ there))

end Arena

end BoundaryTag
