import BoundaryTag.Proofs.FreeLists
import BoundaryTag.Proofs.Layout

/-!
# Drafts of a layout

In the middle of an operation the flags of a block need not tell the truth, there may be gaps
between blocks, and a free block may wait to be listed. What still holds is a draft: a row of blocks
in address order whose tags stand in the arena, and a shelf of those that the lists know about. Each
step of an operation turns a draft into the next one and touches no payload of the row.
-/
namespace BoundaryTag

open Validator (Entry)

namespace Validator.Entry

variable {entry left right : Entry} {position : Nat}

/-- The bytes of a block, or of the header alone if the block has size zero. -/
def Area (entry : Entry) : Nat → Prop :=
  Span entry.offset (max entry.stop (entry.offset + 8))

/-- The bytes of an allocated block that its owner may use. -/
def Payload (entry : Entry) (position : Nat) : Prop :=
  entry.header.allocated = true ∧ Span (entry.offset + 8) entry.stop position

/-- A real block ends before another entry starts. -/
def Ahead (left right : Entry) : Prop := left.stop ≤ right.offset ∧ 16 ≤ left.size

theorem area_of_tag (tag : entry.Tag position) : entry.Area position := by
  unfold Tag Area Span stop at *
  omega

theorem area_of_payload (payload : entry.Payload position) : entry.Area position := by
  unfold Payload Area Span at *
  omega

theorem not_payload_of_tag (tag : entry.Tag position) : ¬entry.Payload position := by
  rintro ⟨allocated, payload⟩
  rcases tag with header | ⟨free, -⟩
  · unfold Span at *
    omega
  · exact not_free_of_allocated allocated free

def Disjoint (left right : Entry) : Prop :=
  ∀ position, ¬(left.Area position ∧ right.Area position)

instance : Std.Symm Disjoint where
  symm _ _ disjoint position both := disjoint position both.symm

theorem Ahead.disjoint (ahead : left.Ahead right) : left.Disjoint right := by
  intro position both
  unfold Ahead Area Span stop at *
  omega

end Validator.Entry

/-- The position is in no payload of these blocks. -/
def Outside (entries : List Entry) (position : Nat) : Prop :=
  ∀ entry ∈ entries, ¬entry.Payload position

theorem Outside.subset {entries fewer : List Entry} {position : Nat}
    (outside : Outside entries position) (subset : fewer ⊆ entries) : Outside fewer position :=
  fun entry member => outside entry (subset member)

/-- What a block records about the one before it does not change its payload. -/
theorem outside_recording {left right : List Entry} {next : Entry} {position : Nat}
    (prevAllocated prevMinimal : Bool) :
    Outside (left ++ next.recording prevAllocated prevMinimal :: right) position ↔
      Outside (left ++ next :: right) position := by
  have same : (next.recording prevAllocated prevMinimal).Payload = next.Payload := rfl
  simp only [Outside, List.forall_mem_append, List.forall_mem_cons, same]

theorem Listing.congr {arena : Arena} {lists : FreeLists} {chains : Chains}
    {blocks others : List Entry} (listing : Listing arena lists blocks chains)
    (same : ∀ block : Entry, block.IsFree → (block ∈ others ↔ block ∈ blocks)) :
    Listing arena lists others chains := by
  refine ⟨listing.heads, listing.links, listing.nodup, fun bucket offset => ?_⟩
  rw [listing.members]
  refine exists_congr fun block => ⟨?_, ?_⟩
  · rintro ⟨member, free, rest⟩
    exact ⟨(same block free).mpr member, free, rest⟩
  · rintro ⟨member, free, rest⟩
    exact ⟨(same block free).mp member, free, rest⟩

/-- Blocks whose tags stand in the arena, in address order, of which those on the shelf are listed
if they are free. -/
structure Draft (arena : Arena) (lists : FreeLists) (row shelf : List Entry) (chains : Chains) :
    Prop where
  prologue : (Header.ofWord (arena.word 0)).isSentinel = true
  ordered : row.Pairwise Entry.Ahead
  aligned : ∀ entry ∈ row, entry.offset % 16 = 8
  low : ∀ entry ∈ row, 8 ≤ entry.offset
  high : ∀ entry ∈ row, entry.offset + 8 ≤ arena.hi ∧ entry.stop ≤ arena.hi
  stored : ∀ entry ∈ row, entry.Stored arena
  shelved : shelf.Sublist row
  real : ∀ entry ∈ shelf, entry.IsFree → 16 ≤ entry.size
  listing : Listing arena lists shelf chains

theorem mem_iff_of_taken {front back : List Entry} {block entry : Entry} (taken : ¬entry.IsFree)
    (free : block.IsFree) : block ∈ front ++ entry :: back ↔ block ∈ front ++ back := by
  have different : block ≠ entry := by
    rintro rfl
    exact taken free
  simp [different]

theorem mem_iff_of_last_taken {front : List Entry} {block entry : Entry} (taken : ¬entry.IsFree)
    (free : block.IsFree) : block ∈ front ++ [entry] ↔ block ∈ front := by
  rw [mem_iff_of_taken taken free, List.append_nil]

/-- A block that can be written between two parts of a row, over what stands there. -/
structure Fits (arena : Arena) (row front : List Entry) (entry : Entry) (back : List Entry) :
    Prop where
  kept : (front ++ back).Sublist row
  behind : ∀ other ∈ front, other.Ahead entry
  ahead : ∀ other ∈ back, entry.Ahead other
  aligned : entry.offset % 16 = 8
  low : 8 ≤ entry.offset
  high : entry.offset + 8 ≤ arena.hi ∧ entry.stop ≤ arena.hi

namespace Draft

variable {arena after : Arena} {lists edited : FreeLists} {row shelf front back : List Entry}
  {chains : Chains} {entry left right : Entry} {bucket : Bucket} {offset : Nat}

theorem disjoint (draft : Draft arena lists row shelf chains) (here : left ∈ row)
    (there : right ∈ row) (different : left ≠ right) : left.Disjoint right :=
  (draft.ordered.imp Entry.Ahead.disjoint).forall here there different

theorem nodup (draft : Draft arena lists row shelf chains) : row.Nodup := by
  refine draft.ordered.imp fun {left right} ahead same => ?_
  subst same
  unfold Entry.Ahead Entry.stop at ahead
  omega

theorem sizeAt (draft : Draft arena lists row shelf chains) (member : entry ∈ row) :
    arena.sizeAt entry.offset = entry.size := by
  rw [Arena.sizeAt, (draft.stored entry member).header, Header.ofWord_toWord]
  rfl

/-- What is on a list is a free block on the shelf. -/
theorem exists_of_listed (draft : Draft arena lists row shelf chains)
    (member : offset ∈ chains bucket) : ∃ entry ∈ shelf, entry ∈ row ∧ entry.IsFree
      ∧ 16 ≤ entry.size ∧ entry.offset = offset ∧ Bucket.classify entry.size = bucket := by
  obtain ⟨entry, shelved, free, start, classified⟩ :=
    (draft.listing.members bucket offset).mp member
  exact ⟨entry, shelved, draft.shelved.subset shelved, free, draft.real entry shelved free, start,
    classified⟩

theorem apart (draft : Draft arena lists row shelf chains) (here : left ∈ row) (there : right ∈ row)
    (different : left ≠ right) : arena.Apart left.offset right.offset := by
  have disjoint := draft.disjoint here there different
  have leftStart := disjoint left.offset
  have rightStart := disjoint right.offset
  unfold Arena.Apart
  rw [draft.sizeAt here, draft.sizeAt there]
  unfold Entry.Area Entry.stop Span at *
  omega

/-- The lists of a draft spell out its chains. -/
theorem listed (draft : Draft arena lists row shelf chains) : Listed arena lists chains := by
  refine ⟨draft.listing.heads, draft.listing.links, draft.listing.nodup, ?_, ?_⟩
  · intro bucket offset member
    obtain ⟨entry, -, present, -, real, rfl, classified⟩ := draft.exists_of_listed member
    have low := draft.low entry present
    have high := (draft.high entry present).2
    have size := draft.sizeAt present
    refine ⟨by omega, by omega, ?_, by rw [size, classified]⟩
    rw [size]
    exact high
  · intro bucket other first here second there different
    obtain ⟨left, -, present, -, -, rfl, -⟩ := draft.exists_of_listed here
    obtain ⟨right, -, alsoPresent, -, -, rfl, -⟩ := draft.exists_of_listed there
    exact draft.apart present alsoPresent (by rintro rfl; exact different rfl)

theorem eq_of_offset (draft : Draft arena lists row shelf chains) (here : left ∈ row)
    (there : right ∈ row) (same : left.offset = right.offset) : left = right := by
  by_contra different
  refine draft.disjoint here there different left.offset ?_
  unfold Entry.Area Span
  omega

/-- The links of a free block lie outside all tags and all payloads of the row. -/
theorem not_tag_of_linkSlot (draft : Draft arena lists row shelf chains) (present : entry ∈ row)
    (free : entry.IsFree) (real : 16 ≤ entry.size) {position : Nat}
    (slot : arena.LinkSlot entry.offset position) :
    Outside row position ∧ ∀ other ∈ row, ¬other.Tag position := by
  rw [Arena.LinkSlot, draft.sizeAt present] at slot
  have inside : entry.Area position := by
    unfold Entry.Area Entry.stop Span at *
    omega
  constructor
  · intro other there payload
    by_cases same : entry = other
    · subst same
      exact Entry.not_free_of_allocated payload.1 free
    · exact draft.disjoint present there same position ⟨inside, Entry.area_of_payload payload⟩
  · intro other there tag
    by_cases same : entry = other
    · subst same
      unfold Entry.Tag Entry.stop Span at *
      omega
    · exact draft.disjoint present there same position ⟨inside, Entry.area_of_tag tag⟩

/-- A block may be written over one that starts and ends where it does. -/
theorem fits (draft : Draft arena lists (front ++ left :: back) shelf chains)
    (place : right.offset = left.offset) (size : right.size = left.size) :
    Fits arena (front ++ left :: back) front right back := by
  obtain ⟨-, rear, cross⟩ := List.pairwise_append.mp draft.ordered
  have stop : right.stop = left.stop := by rw [Entry.stop, place, size, Entry.stop]
  refine ⟨by simp, ?_, ?_, place ▸ draft.aligned left (by simp), place ▸ draft.low left (by simp),
    ?_⟩
  · intro other here
    unfold Entry.Ahead
    rw [place]
    exact cross other here left List.mem_cons_self
  · intro other there
    unfold Entry.Ahead
    rw [stop, size]
    exact (List.pairwise_cons.mp rear).1 other there
  · rw [place, stop]
    exact draft.high left (by simp)

/-- The backward link of a listed block leads to a block or to none, so it is idle. -/
theorem idle_link (draft : Draft arena lists row shelf chains) (shelved : entry ∈ shelf)
    (free : entry.IsFree) (large : 32 ≤ entry.size) : arena.Idle (entry.offset + 16) := by
  have member : entry.offset ∈ chains (Bucket.classify entry.size) :=
    (draft.listing.members _ _).mpr ⟨entry, shelved, free, rfl, rfl⟩
  obtain ⟨before, rest, place⟩ := List.append_of_mem member
  have link := (FreeLists.links_of_place draft.listed place).2
    ((Bucket.isTwoWay_classify entry.size).mpr large)
  have even : (before.getLast?.getD 0) % 2 = 0 := by
    cases last : before.getLast? with
    | none => rfl
    | some left =>
      have there : left ∈ chains (Bucket.classify entry.size) := by
        simp [place, List.mem_of_getLast? last]
      obtain ⟨other, -, present, -, -, rfl, -⟩ := draft.exists_of_listed there
      have aligned := draft.aligned other present
      rw [Option.getD_some]
      omega
  rw [Arena.Idle, link]
  simp [Header.ofWord, even]

/-- A change of links keeps the row; the lists may then hold another shelf. -/
theorem relist {touched : Nat → Prop} {other : List Entry} {others : Chains}
    (draft : Draft arena lists row shelf chains) (confined : Arena.Confined touched arena after)
    (links : ∀ position, touched position → ∃ entry ∈ other, entry.IsFree ∧ 16 ≤ entry.size
      ∧ arena.LinkSlot entry.offset position)
    (shelved : other.Sublist row) (real : ∀ entry ∈ other, entry.IsFree → 16 ≤ entry.size)
    (listing : Listing after edited other others) :
    Draft after edited row other others ∧ Arena.Confined (Outside row) arena after
      ∧ arena.StaysIdle after := by
  -- Links of listed blocks are inside those blocks, behind their headers and before their footers.
  have clear (position : Nat) (touches : touched position) :
      Outside row position ∧ ∀ other ∈ row, ¬other.Tag position := by
    obtain ⟨entry, listed, free, real, slot⟩ := links position touches
    exact draft.not_tag_of_linkSlot (shelved.subset listed) free real slot
  have prologue : after.word 0 = arena.word 0 := by
    apply confined.word
    intro position low touches
    obtain ⟨entry, listed, -, -, slot⟩ := links position touches
    have start := draft.low entry (shelved.subset listed)
    unfold Arena.LinkSlot Span at *
    omega
  have edits : Draft after edited row other others := by
    refine ⟨prologue ▸ draft.prologue, draft.ordered, draft.aligned, draft.low, ?_, ?_, shelved,
      real, listing⟩
    · rw [confined.hi]
      exact draft.high
    · intro entry present
      refine (draft.stored entry present).confined confined fun position tag touches => ?_
      exact (clear position touches).2 entry present tag
  refine ⟨edits, confined.mono fun position touches => (clear position touches).1, ?_⟩
  intro offset place idle
  by_cases away : ∀ position, Span offset (offset + 8) position → ¬touched position
  · exact idle.confined confined away
  · -- What stands there is now the backward link of a block on the new shelf.
    simp only [not_forall, not_not] at away
    obtain ⟨position, inside, touches⟩ := away
    obtain ⟨entry, listed, free, -, slot⟩ := links position touches
    have aligned := draft.aligned entry (shelved.subset listed)
    have width := entry.size_mod
    rw [Arena.LinkSlot, draft.sizeAt (shelved.subset listed)] at slot
    have back : offset = entry.offset + 16 ∧ 32 ≤ entry.size := by
      unfold Span at *
      omega
    rw [back.1]
    exact edits.idle_link listed free back.2

theorem remove_returns (draft : Draft arena lists row (front ++ entry :: back) chains)
    (free : entry.IsFree) :
    Returns (lists.remove ⟨entry.offset⟩) arena fun edited after =>
      Draft after edited row (front ++ back) (chains.drop entry.offset)
        ∧ Arena.Confined (Outside row) arena after ∧ arena.StaysIdle after := by
  have member : entry.offset ∈ chains (Bucket.classify entry.size) :=
    (draft.listing.members _ _).mpr ⟨entry, by simp, free, rfl, rfl⟩
  obtain ⟨before, rest, place⟩ := List.append_of_mem member
  refine (FreeLists.remove_returns draft.listed place).mono ?_
  rintro edited after ⟨listed, confined⟩
  have fewer : (front ++ back).Sublist (front ++ entry :: back) :=
    (List.sublist_cons_self entry back).append_left front
  have remaining (bucket : Bucket) (offset : Nat) :
      offset ∈ chains.drop entry.offset bucket ↔ ∃ block ∈ front ++ back,
        block.IsFree ∧ block.offset = offset ∧ Bucket.classify block.size = bucket := by
    -- No other block of the row starts there, so exactly one block leaves the shelf.
    have nodup := draft.nodup.sublist draft.shelved
    rw [Chains.drop, (draft.listing.nodup bucket).mem_erase_iff, draft.listing.members]
    constructor
    · rintro ⟨different, other, member, rest⟩
      refine ⟨other, ?_, rest⟩
      rcases List.mem_append.mp member with here | (_ | ⟨_, here⟩)
      · exact List.mem_append_left _ here
      · exact absurd rest.2.1.symm different
      · exact List.mem_append_right _ here
    · rintro ⟨other, there, rest⟩
      refine ⟨?_, other, fewer.subset there, rest⟩
      rintro rfl
      have shelved := draft.shelved.subset
      have same := draft.eq_of_offset (shelved (fewer.subset there))
        (shelved (List.mem_append_right _ List.mem_cons_self)) rest.2.1
      subst same
      exact (List.nodup_cons.mp (List.nodup_middle.mp nodup)).1 there
  refine draft.relist confined ?_ (fewer.trans draft.shelved)
    (fun other member => draft.real other (fewer.subset member))
    ⟨listed.heads, listed.links, listed.nodup, remaining⟩
  rintro position ⟨block, neighbour, slot⟩
  -- The neighbours on the list stay on the shelf.
  have listed : block ∈ chains.drop entry.offset (Bucket.classify entry.size) := by
    rw [draft.listed.drop_eq place, if_pos rfl]
    rcases neighbour with last | first
    · simp [List.mem_of_getLast? last]
    · simp [List.mem_of_head? first]
  obtain ⟨other, there, free, rfl, -⟩ := (remaining _ _).mp listed
  exact ⟨other, there, free, draft.real other (fewer.subset there) free, slot⟩

theorem insert_returns (draft : Draft arena lists row (front ++ back) chains)
    (free : entry.IsFree) (real : 16 ≤ entry.size)
    (shelved : (front ++ entry :: back).Sublist row) :
    Returns (lists.insert ⟨entry.offset⟩) arena fun edited after =>
      Draft after edited row (front ++ entry :: back)
          (chains.push (Bucket.classify entry.size) entry.offset)
        ∧ Arena.Confined (Outside row) arena after ∧ arena.StaysIdle after := by
  have present : entry ∈ row := shelved.subset (by simp)
  have size := draft.sizeAt present
  have absent : entry ∉ front ++ back :=
    (List.nodup_cons.mp (List.nodup_middle.mp (draft.nodup.sublist shelved))).1
  have listable : arena.Listable (Bucket.classify entry.size) entry.offset := by
    have low := draft.low entry present
    have high := (draft.high entry present).2
    refine ⟨by omega, by omega, ?_, by rw [size]⟩
    rw [size]
    exact high
  have fresh (bucket : Bucket) (offset : Nat) (member : offset ∈ chains bucket) :
      arena.Apart entry.offset offset := by
    obtain ⟨other, listed, there, -, -, rfl, -⟩ := draft.exists_of_listed member
    refine draft.apart present there ?_
    rintro rfl
    exact absent listed
  refine (FreeLists.insert_returns draft.listed listable fresh).mono ?_
  rintro edited after ⟨listed, confined⟩
  refine draft.relist confined ?_ shelved ?_ ⟨listed.heads, listed.links, listed.nodup, ?_⟩
  · rintro position ⟨block, rfl | first, slot⟩
    · exact ⟨entry, by simp, free, real, slot⟩
    · obtain ⟨other, shelved, -, free, real, rfl, -⟩ :=
        draft.exists_of_listed (List.mem_of_head? first)
      have wider : front ++ back ⊆ front ++ entry :: back :=
        ((List.sublist_cons_self entry back).append_left front).subset
      exact ⟨other, wider shelved, free, real, slot⟩
  · intro other member free
    rcases List.mem_append.mp member with here | (_ | ⟨_, here⟩)
    · exact draft.real other (List.mem_append_left _ here) free
    · exact real
    · exact draft.real other (List.mem_append_right _ here) free
  · intro bucket offset
    have step : offset ∈ chains.push (Bucket.classify entry.size) entry.offset bucket ↔
        (entry.offset = offset ∧ Bucket.classify entry.size = bucket) ∨ offset ∈ chains bucket := by
      unfold Chains.push
      split <;> simp [*, eq_comm]
    rw [step, draft.listing.members]
    simp only [List.mem_append, List.mem_cons]
    constructor
    · rintro (⟨start, classified⟩ | ⟨other, member, rest⟩)
      · exact ⟨entry, .inr (.inl rfl), free, start, classified⟩
      · exact ⟨other, member.imp_right .inr, rest⟩
    · rintro ⟨other, here | rfl | here, rest⟩
      · exact .inr ⟨other, .inl here, rest⟩
      · exact .inl rest.2
      · exact .inr ⟨other, .inr here, rest⟩

/-- Writing the tags of a block between two parts of a row, over what stood there. -/
theorem write {other : List Entry} (draft : Draft arena lists row shelf chains)
    (fits : Fits arena row front entry back) (confined : Arena.Confined entry.Tag arena after)
    (stored : entry.Stored after) (shelved : other.Sublist (front ++ entry :: back))
    (same : ∀ block : Entry, block.IsFree → (block ∈ other ↔ block ∈ shelf))
    (spared : ∀ block ∈ shelf, block.IsFree → block ∈ front ++ back) :
    Draft after lists (front ++ entry :: back) other chains
      ∧ Arena.Confined (Outside (front ++ entry :: back)) arena after := by
  obtain ⟨kept, behind, ahead, aligned, low, high⟩ := fits
  -- What is kept of the row has no byte in common with the block that is written.
  have old {block : Entry} (member : block ∈ front ++ back) :
      block ∈ row ∧ entry.Disjoint block := by
    refine ⟨kept.subset member, ?_⟩
    rcases List.mem_append.mp member with here | here
    · exact Std.Symm.symm _ _ (behind block here).disjoint
    · exact (ahead block here).disjoint
  have cases {block : Entry} (member : block ∈ front ++ entry :: back) :
      block = entry ∨ block ∈ front ++ back := by
    simpa [or_left_comm] using member
  have prologue : after.word 0 = arena.word 0 := by
    apply confined.word
    intro position start tag
    have area := Entry.area_of_tag tag
    unfold Entry.Area Span at *
    omega
  have listed : Listed after lists chains := by
    refine draft.listed.confined confined fun bucket offset member position kept tag => ?_
    obtain ⟨block, shelved, present, free, real, rfl, -⟩ := draft.exists_of_listed member
    refine (old (spared block shelved free)).2 position ⟨Entry.area_of_tag tag, ?_⟩
    rw [Arena.Kept, draft.sizeAt present] at kept
    unfold Entry.Area Entry.stop Span at *
    omega
  constructor
  · refine ⟨prologue ▸ draft.prologue, ?_, ?_, ?_, ?_, ?_, shelved, ?_, Listing.congr
      ⟨listed.heads, listed.links, listed.nodup, draft.listing.members⟩ same⟩
    · obtain ⟨start, rear, cross⟩ := List.pairwise_append.mp (draft.ordered.sublist kept)
      refine List.pairwise_append.mpr ⟨start, List.pairwise_cons.mpr ⟨ahead, rear⟩, ?_⟩
      rintro left here right (_ | ⟨_, there⟩)
      · exact behind left here
      · exact cross left here right there
    · intro block member
      rcases cases member with rfl | member
      · exact aligned
      · exact draft.aligned block (old member).1
    · intro block member
      rcases cases member with rfl | member
      · exact low
      · exact draft.low block (old member).1
    · intro block member
      rw [confined.hi]
      rcases cases member with rfl | member
      · exact high
      · exact draft.high block (old member).1
    · intro block member
      rcases cases member with rfl | member
      · exact stored
      · refine (draft.stored block (old member).1).confined confined fun position tag touched => ?_
        exact (old member).2 position ⟨Entry.area_of_tag touched, Entry.area_of_tag tag⟩
    · intro block member free
      exact draft.real block ((same block free).mp member) free
  · refine confined.mono fun position tag block member payload => ?_
    rcases cases member with rfl | member
    · exact Entry.not_payload_of_tag tag payload
    · exact (old member).2 position ⟨Entry.area_of_tag tag, Entry.area_of_payload payload⟩

/-- A heap that a layout describes is a draft with everything on the shelf. -/
theorem of_describes {layout : Layout} (describes : layout.Describes arena lists) :
    Draft arena lists (layout.blocks ++ [arena.epilogue]) (layout.blocks ++ [arena.epilogue])
      layout.chains := by
  obtain ⟨tiling, listing⟩ := describes
  obtain ⟨size, closed⟩ := Entry.of_sentinel tiling.epilogue
  have room := tiling.room
  have last (entry : Entry) (member : entry ∈ layout.blocks ++ [arena.epilogue]) :
      entry ∈ layout.blocks ∨ entry = arena.epilogue := by
    simpa using member
  refine ⟨tiling.prologue, ?_, ?_, ?_, ?_, ?_, .refl _, ?_,
    Listing.congr listing fun _ free => mem_iff_of_last_taken closed free⟩
  · obtain ⟨blocks, -, ends⟩ :=
      List.pairwise_append.mp (List.pairwise_cons.mp tiling.ordered).2
    refine List.pairwise_append.mpr ⟨?_, List.pairwise_singleton _ _, ?_⟩
    · exact blocks.imp_of_mem fun here _ before => ⟨before, tiling.real _ here⟩
    · exact fun left here right there => ⟨ends left here right there, tiling.real left here⟩
  · exact offset_mod_of_chain _ Entry.prologue tiling.chain rfl
  · intro entry member
    rcases last entry member with member | rfl
    · exact (tiling.bounds member).1
    · change 8 ≤ arena.hi - 8
      omega
  · intro entry member
    rcases last entry member with member | rfl
    · have bounds := tiling.bounds member
      unfold Entry.stop at *
      omega
    · rw [Entry.stop, size]
      change arena.hi - 8 + 8 ≤ arena.hi ∧ arena.hi - 8 + 0 ≤ arena.hi
      omega
  · intro entry member
    rcases last entry member with member | rfl
    · exact tiling.stored entry member
    · refine ⟨?_, fun free => absurd free closed⟩
      rw [Arena.epilogue, Header.toWord_ofWord]
  · intro entry member free
    rcases last entry member with member | rfl
    · exact tiling.real entry member
    · exact absurd free closed

/-- A draft with everything on the shelf whose blocks tile the arena is a layout. -/
theorem describes {blocks : List Entry} {last : Entry}
    (draft : Draft arena lists (blocks ++ [last]) (blocks ++ [last]) chains)
    (chain : (Entry.prologue :: blocks ++ [last]).IsChain Adjoins)
    (sentinel : last.header.isSentinel = true) (place : last.offset + 8 = arena.hi)
    (reserved : ∀ entry ∈ blocks, entry.header.reserved = false) :
    last = arena.epilogue ∧ Layout.Describes ⟨blocks, chains⟩ arena lists := by
  obtain ⟨-, closed⟩ := Entry.of_sentinel sentinel
  have low := draft.low last (by simp)
  have same : last = arena.epilogue := by
    have header := (draft.stored last (by simp)).header
    have start : arena.hi - 8 = last.offset := by omega
    rw [Arena.epilogue, start, header, Header.ofWord_toWord]
  refine ⟨same, ⟨by omega, draft.prologue, same ▸ sentinel, same ▸ chain, ?_, reserved, ?_⟩, ?_⟩
  · intro entry member
    exact ((List.pairwise_append.mp draft.ordered).2.2 entry member last (by simp)).2
  · exact fun entry member => draft.stored entry (List.mem_append_left _ member)
  · exact Listing.congr draft.listing fun _ free => (mem_iff_of_last_taken closed free).symm

end Draft

theorem Layout.Describes.listed {layout : Layout} {arena : Arena} {lists : FreeLists}
    (describes : layout.Describes arena lists) : Listed arena lists layout.chains :=
  (Draft.of_describes describes).listed

end BoundaryTag
