import BoundaryTag.Proofs.Blocks

/-!
# The free lists as plain sequences

Seen from outside, the free lists are fifteen sequences of blocks. Putting a block in adds it to the
front of one of them, taking one out erases it, and a walk along a bucket finds what the sequence
says, after however many edits. In the arena an edit touches link slots only, those of the block and
of its neighbours on the list.
-/
namespace BoundaryTag

/-- The two blocks stand next to each other in some bucket. -/
def Chains.Neighbours (chains : Chains) (offset block : Nat) : Prop :=
  ∃ bucket before rest, chains bucket = before ++ offset :: rest
    ∧ (before.getLast? = some block ∨ rest.head? = some block)

namespace FreeLists

/-- One change of the free lists. -/
inductive Edit where
  /-- A block becomes the head of the bucket of its size. -/
  | insert (offset : Nat)
  /-- A member is taken out of its bucket. -/
  | remove (offset : Nat)
deriving DecidableEq, Repr

namespace Edit

def run (lists : FreeLists) : Edit → ArenaM FreeLists
  | insert offset => lists.insert ⟨offset⟩
  | remove offset => lists.remove ⟨offset⟩

/-- What the edit makes of the sequences. -/
def apply (arena : Arena) (chains : Chains) : Edit → Chains
  | insert offset => chains.push (Bucket.classify (arena.sizeAt offset)) offset
  | remove offset => chains.drop offset

/-- What is put in is a block inside the arena that overlaps no member, and what is taken out is a
member. -/
def Permitted (arena : Arena) (chains : Chains) : Edit → Prop
  | insert offset => arena.Listable (Bucket.classify (arena.sizeAt offset)) offset
      ∧ ∀ bucket, ∀ member ∈ chains bucket, arena.Apart offset member
  | remove offset => ∃ bucket, offset ∈ chains bucket

/-- The block of the edit and its neighbours, while it is on the list. -/
def Concerns (arena : Arena) (chains : Chains) (edit : Edit) (block : Nat) : Prop :=
  match edit with
  | insert offset => block = offset ∨ (edit.apply arena chains).Neighbours offset block
  | remove offset => block = offset ∨ chains.Neighbours offset block

end Edit

/-- What some edits, one after the other, make of an arena, the heads and the sequences. -/
inductive Edited (arena : Arena) (lists : FreeLists) (chains : Chains) :
    Arena → FreeLists → Chains → Prop
  | nothing : Edited arena lists chains arena lists chains
  | step {middle after : Arena} {edited final : FreeLists} {others : Chains} {edit : Edit}
      (before : Edited arena lists chains middle edited others)
      (permitted : edit.Permitted middle others) (run : edit.run edited middle = .ok final after) :
      Edited arena lists chains after final (edit.apply middle others)

variable {arena after : Arena} {lists edited : FreeLists} {chains others : Chains}

/-- A permitted edit does not fault, and leaves free lists that spell out the edited sequences. -/
theorem edit_returns (listed : Listed arena lists chains) (edit : Edit)
    (permitted : edit.Permitted arena chains) :
    Returns (edit.run lists) arena fun edited after =>
      Listed after edited (edit.apply arena chains)
        ∧ Arena.Confined (fun position => ∃ block, edit.Concerns arena chains block
          ∧ arena.LinkSlot block position) arena after := by
  cases edit with
  | insert offset =>
    obtain ⟨listable, fresh⟩ := permitted
    refine (insert_returns listed listable fresh).mono ?_
    rintro edited after ⟨pushed, confined⟩
    refine ⟨pushed, confined.mono ?_⟩
    rintro position ⟨block, rfl | first, slot⟩
    · exact ⟨block, .inl rfl, slot⟩
    · -- The old head is the neighbour of the new one.
      refine ⟨block, .inr ⟨_, [], _, if_pos rfl, .inr first⟩, slot⟩
  | remove offset =>
    obtain ⟨bucket, member⟩ := permitted
    obtain ⟨before, rest, place⟩ := List.append_of_mem member
    refine (remove_returns listed place).mono ?_
    rintro edited after ⟨dropped, confined⟩
    refine ⟨dropped, confined.mono ?_⟩
    rintro position ⟨block, beside, slot⟩
    exact ⟨block, .inr ⟨bucket, before, rest, place, beside⟩, slot⟩

theorem Edited.listed (steps : Edited arena lists chains after edited others)
    (listed : Listed arena lists chains) : Listed after edited others := by
  induction steps with
  | nothing => exact listed
  | step before permitted run ih => exact ((edit_returns ih _ permitted).of_run run).1

/-- Free lists that spell out sequences go on doing so. Each permitted edit ends without a fault,
has on the sequences the effect of the same edit of plain lists, and changes no byte but in the
link slots of its block and of the neighbours of that block. After any number of edits each bucket
has exactly the members that its sequence says, in this order. -/
theorem lists_refine_sequences (listed : Listed arena lists chains) :
    (∀ edit : Edit, edit.Permitted arena chains → ∃ edited after,
        edit.run lists arena = .ok edited after ∧ Listed after edited (edit.apply arena chains)
          ∧ Arena.Confined (fun position => ∃ block, edit.Concerns arena chains block
            ∧ arena.LinkSlot block position) arena after)
      ∧ (∀ bucket before offset rest, chains bucket = before ++ offset :: rest →
        (Edit.remove offset).apply arena chains =
          fun other => if other = bucket then before ++ rest else chains other)
      ∧ ∀ after edited others, Edited arena lists chains after edited others →
        Listed after edited others ∧ ∀ bucket,
          edited.members after bucket = .ok ((others bucket).map Block.mk)
            ∧ ∀ limit, edited.firstMembers after limit bucket =
              .ok (((others bucket).take limit).map Block.mk) := by
  refine ⟨fun edit permitted => edit_returns listed edit permitted, ?_, ?_⟩
  · intro bucket before offset rest place
    exact funext fun other => listed.drop_eq place other
  · intro after edited others steps
    have still := steps.listed listed
    exact ⟨still, fun bucket => ⟨still.members bucket, (still.firstMembers · bucket)⟩⟩

/-- An arena with three blocks in a row, of 48, 48 and 16 bytes, of which the first two link to each
other. -/
def pairedBlocks : Arena where
  backing := .mapping
  capacity := 8192
  hi := 120
  store := [(8, 48), (16, 56), (56, 48), (72, 8), (104, 16)].foldl
    (fun store (offset, word) => store.overwrite offset wordSize (Bytes.byteOf word)) .empty
  hi_le_capacity := by decide
  capacity_lt := by decide
  zero_above_hi := nofun

/-- The first two blocks are on the list of their class. -/
def pairedChains : Chains :=
  Chains.push (fun _ => []) (.classify 48) 56 |>.push (.classify 48) 8

theorem pairedChains_eq (bucket : Bucket) :
    pairedChains bucket = if bucket = 2 then [8, 56] else [] := by
  have class_eq : Bucket.classify 48 = 2 := by decide
  rw [pairedChains, class_eq]
  by_cases two : bucket = 2 <;> simp [Chains.push, two]

theorem mem_pairedChains {bucket : Bucket} {offset : Nat} (member : offset ∈ pairedChains bucket) :
    bucket = 2 ∧ (offset = 8 ∨ offset = 56) := by
  rw [pairedChains_eq] at member
  split at member
  next same => exact ⟨same, by simpa using member⟩
  next => cases member

theorem sizeAt_pairedBlocks : pairedBlocks.sizeAt 8 = 48 ∧ pairedBlocks.sizeAt 56 = 48
    ∧ pairedBlocks.sizeAt 104 = 16 := by
  decide +kernel

theorem listed_pairedBlocks :
    Listed pairedBlocks (empty.setHead 2 (some ⟨8⟩)) pairedChains := by
  have links : pairedBlocks.word 16 = 56 ∧ pairedBlocks.word 24 = 0 ∧ pairedBlocks.word 64 = 0
      ∧ pairedBlocks.word 72 = 8 := by decide +kernel
  have class_eq : Bucket.classify 48 = 2 := by decide
  have sizes := sizeAt_pairedBlocks
  have top : pairedBlocks.hi = 120 := rfl
  constructor
  · intro bucket
    rw [head_setHead, head_empty, pairedChains_eq]
    split <;> rfl
  · intro bucket
    rw [pairedChains_eq]
    split <;> simp [Arena.Linked, links]
  · intro bucket
    rw [pairedChains_eq]
    split <;> decide
  · intro bucket offset member
    obtain ⟨rfl, rfl | rfl⟩ := mem_pairedChains member <;>
      exact ⟨by decide, by omega, by omega, by simp [sizes, class_eq]⟩
  · intro bucket other left inLeft right inRight different
    unfold Arena.Apart
    obtain ⟨-, rfl | rfl⟩ := mem_pairedChains inLeft <;>
      obtain ⟨-, rfl | rfl⟩ := mem_pairedChains inRight <;> omega

/-- The second of two members is taken out of its bucket, and a block becomes the only member of
the bucket of minimal blocks. -/
theorem lists_refine_sequences_of_pairedBlocks :
    ∃ (lists removed inserted : FreeLists) (left right : Arena),
      Listed pairedBlocks lists pairedChains
        ∧ lists.remove ⟨56⟩ pairedBlocks = .ok removed left ∧ removed.members left 2 = .ok [⟨8⟩]
        ∧ lists.insert ⟨104⟩ pairedBlocks = .ok inserted right
        ∧ inserted.members right 0 = .ok [⟨104⟩] := by
  obtain ⟨edits, -, sequences⟩ := lists_refine_sequences listed_pairedBlocks
  have sizes := sizeAt_pairedBlocks
  have minimal : Bucket.classify 16 = 0 := by decide
  have top : pairedBlocks.hi = 120 := rfl
  have leaving : (Edit.remove 56).Permitted pairedBlocks pairedChains :=
    ⟨2, by simp [pairedChains_eq]⟩
  have coming : (Edit.insert 104).Permitted pairedBlocks pairedChains := by
    refine ⟨⟨by decide, by omega, by omega, rfl⟩, ?_⟩
    intro bucket member there
    obtain ⟨-, rfl | rfl⟩ := mem_pairedChains there <;> exact .inr (by omega)
  obtain ⟨removed, left, remove, -⟩ := edits (.remove 56) leaving
  obtain ⟨inserted, right, insert, -⟩ := edits (.insert 104) coming
  have shorter := (sequences _ _ _ (.step .nothing leaving remove)).2 2
  have longer := (sequences _ _ _ (.step .nothing coming insert)).2 0
  refine ⟨_, removed, inserted, left, right, listed_pairedBlocks, remove, shorter.1.trans ?_,
    insert, longer.1.trans ?_⟩
  · simp [Edit.apply, Chains.drop, pairedChains_eq]
  · simp [Edit.apply, Chains.push, sizes, minimal, pairedChains_eq]

end FreeLists

end BoundaryTag
