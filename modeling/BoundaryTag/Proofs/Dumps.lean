import BoundaryTag.Heap.Dump
import BoundaryTag.Proofs.Blocks
import BoundaryTag.Proofs.SizeClasses
import BoundaryTag.Proofs.Texts

/-!
# Dumps

A dump is read back line by line: the heap, the blocks in address order, and the buckets that have
members. The line of a bucket shows the sizes that the bucket is for, and the only words on it that
look like offsets are those of its members, in list order.
-/
namespace BoundaryTag

open Text
open Validator (Entry)

/-- The row starts with the offset of a block, its size and its state. -/
def BlockView.Tells (view : BlockView) (row : List Char) : Prop :=
  ∃ rest, words row = (hexFilled 8 view.block.offset).toList :: (toString view.size).toList
    :: (if view.isFree then "free" else "alloc").toList :: rest

/-- The row is that of a bucket, and the size is in the range that is printed there. -/
def Covers (row : List Char) (size : Nat) : Prop :=
  ∃ rank lower upper rest,
    words row = "bucket".toList :: rank :: ('[' :: lower ++ [',']) :: (upper ++ [']', ':']) :: rest
      ∧ (∃ least, natural? lower = some least ∧ least ≤ size)
      ∧ (upper = "..".toList ∨ ∃ most, natural? upper = some most ∧ size ≤ most)

/-- The word starts as an offset does. -/
def looksHex (word : List Char) : Bool :=
  ['0', 'x'].isPrefixOf word

theorem looksHex_hex (number : Nat) : looksHex (hex number).toList = true := by
  rw [toList_hex]
  rfl

theorem looksHex_of_not_mem {word : List Char} (absent : 'x' ∉ word) : looksHex word = false := by
  rw [looksHex, ← Bool.not_eq_true, List.isPrefixOf_iff_prefix]
  exact fun marked => absent (marked.subset (by simp))

/-- There is no mark among the digits of a number. -/
theorem mark_not_mem_toString (number : Nat) : 'x' ∉ (toString number).toList := by
  rw [toList_toString]
  intro marked
  obtain ⟨digit, below, same⟩ := exists_digit (by decide) marked
  exact (digitChar_spec digit (by omega)).2.1 same.symm

/-! ## Size classes -/

namespace Bucket

/-- How the range of a bucket ends in print. -/
def upperText (bucket : Bucket) : String :=
  match bucket.upper? with
  | some upper => toString upper
  | none => ".."

theorem solid_upperText (bucket : Bucket) : Solid bucket.upperText.toList := by
  unfold upperText
  split
  · exact solid_toString _
  · decide

theorem mark_not_mem_upperText (bucket : Bucket) : 'x' ∉ bucket.upperText.toList := by
  unfold upperText
  split
  · exact mark_not_mem_toString _
  · decide

theorem natural?_upperText (bucket : Bucket) :
    natural? bucket.upperText.toList = bucket.upper?
      ∧ (bucket.upper? = none ↔ bucket.upperText.toList = "..".toList) := by
  have open_end : natural? "..".toList = none := by decide
  unfold upperText
  cases bucket.upper? with
  | none => exact ⟨open_end, iff_of_true rfl rfl⟩
  | some upper =>
    have reads := natural?_toString upper
    refine ⟨reads, iff_of_false nofun fun same => ?_⟩
    rw [same, open_end] at reads
    cases reads

/-- The row shows a bucket with some members. -/
structure Lists (bucket : Bucket) (members : List Block) (row : List Char) : Prop where
  range : ∃ rest, words row = "bucket".toList :: (toString bucket.val).toList
    :: ('[' :: (toString bucket.lower).toList ++ [','])
    :: (bucket.upperText.toList ++ [']', ':']) :: rest
  offsets : (words row).filter looksHex = members.map fun block => (hex block.offset).toList

variable {bucket : Bucket} {members : List Block} {row : List Char}

theorem Lists.covers_iff (lists : bucket.Lists members row) (size : Nat) :
    Covers row size ↔ bucket.lower ≤ size ∧ ∀ upper ∈ bucket.upper?, size ≤ upper := by
  obtain ⟨rest, range⟩ := lists.range
  have least := natural?_toString bucket.lower
  obtain ⟨most, none_iff⟩ := natural?_upperText bucket
  constructor
  · rintro ⟨rank, lower, upper, tail, same, ⟨first, reads, low⟩, high⟩
    simp only [range, List.cons.injEq] at same
    obtain ⟨-, -, start, stop, -⟩ := same
    obtain rfl : (toString bucket.lower).toList = lower :=
      List.cons_inj_right _ |>.mp (List.append_cancel_right start)
    obtain rfl : bucket.upperText.toList = upper := List.append_cancel_right stop
    obtain rfl : bucket.lower = first := Option.some.inj (least.symm.trans reads)
    refine ⟨low, fun last member => ?_⟩
    rcases high with unbounded | ⟨bound, found, fits⟩
    · rw [none_iff.mpr unbounded] at member
      cases member
    · rw [← most, found] at member
      exact Option.some.inj member ▸ fits
  · rintro ⟨low, high⟩
    refine ⟨_, _, _, _, range, ⟨_, least, low⟩, ?_⟩
    cases last : bucket.upper? with
    | none => exact .inl (none_iff.mp last)
    | some upper => exact .inr ⟨upper, most.trans last, high upper last⟩

theorem Lists.mem_iff (lists : bucket.Lists members row) (offset : Nat) :
    (hex offset).toList ∈ words row ↔ ⟨offset⟩ ∈ members := by
  have listed : (hex offset).toList ∈ (words row).filter looksHex ↔
      (hex offset).toList ∈ words row := by
    rw [List.mem_filter, looksHex_hex, and_iff_left rfl]
  rw [← listed, lists.offsets, List.mem_map]
  constructor
  · rintro ⟨block, member, same⟩
    obtain rfl : block.offset = offset := hex_injective (String.toList_inj.mp same)
    exact member
  · exact fun member => ⟨_, member, rfl⟩

end Bucket

/-! ## Rows -/

/-- Solid texts with arrows between them are words with arrows between them, on one line. -/
theorem words_arrows (texts : List (List Char)) (solid : ∀ text ∈ texts, Solid text) :
    words (" -> ".toList.intercalate texts) = texts.intersperse ['-', '>']
      ∧ '\n' ∉ " -> ".toList.intercalate texts := by
  have blank : isBlank ' ' = true := by decide
  have arrow : Solid ['-', '>'] := by decide
  have split (text rest : List Char) :
      text ++ " -> ".toList ++ rest = text ++ ' ' :: (['-', '>'] ++ ' ' :: rest) := by simp
  induction texts with
  | nil => simp [words]
  | cons text texts ih =>
    obtain ⟨first, others⟩ := List.forall_mem_cons.mp solid
    cases texts with
    | nil => simp [words_of_solid first, first.newline_not_mem]
    | cons next texts =>
      obtain ⟨rest, one⟩ := ih others
      rw [List.intercalate_cons_cons, split]
      constructor
      · rw [words_solid_append first blank, words_solid_append arrow blank, rest]
        rfl
      · simpa [first.newline_not_mem] using one

theorem filter_intersperse {Item : Type} {keep : Item → Bool} {mark : Item} (items : List Item)
    (kept : ∀ item ∈ items, keep item = true) (dropped : keep mark = false) :
    (items.intersperse mark).filter keep = items := by
  induction items with
  | nil => rfl
  | cons item items ih =>
    obtain ⟨first, others⟩ := List.forall_mem_cons.mp kept
    cases items with
    | nil => simp [first]
    | cons next items =>
      have rest := ih others
      rw [List.intersperse_cons_cons, List.filter_cons_of_pos first,
        List.filter_cons_of_neg (by simp [dropped]), rest]

namespace Heap

/-- What is known about the block before stands in one word. -/
theorem solid_flagsText (view : BlockView) : Solid (flagsText view).toList := by
  unfold flagsText
  cases view.prevAllocated <;> cases view.prevMinimal <;> decide

theorem solid_linkText (link : Option Block) : Solid (linkText link).toList := by
  cases link with
  | none => decide
  | some block => exact solid_hex block.offset

/-- A line of cells, the first three of which are the offset, the size and the state of a block. -/
theorem tells_of_cells (view : BlockView) {line : String} (more : List (List Char))
    (same : line.toList = spaced ([] :: (hexFilled 8 view.block.offset).toList
      :: (alignRight 8 (toString view.size)).toList
      :: (if view.isFree then "free" else "alloc").toList :: more) ++ ['\n'])
    (plain : ∀ cell ∈ more, '\n' ∉ cell) :
    ∃ row, line.toList = row ++ ['\n'] ∧ '\n' ∉ row ∧ view.Tells row := by
  have offset := solid_hexFilled 8 view.block.offset
  have state : Solid (if view.isFree then "free" else "alloc").toList := by
    split <;> decide
  obtain ⟨width, one⟩ := words_alignRight (solid_toString view.size) 8
  refine ⟨_, same, newline_not_mem_spaced ?_, more.flatMap words, ?_⟩
  · simp only [List.forall_mem_cons]
    exact ⟨List.not_mem_nil, offset.newline_not_mem, one, state.newline_not_mem, plain⟩
  · have none : words [] = [] := by rw [words]
    simp only [words_spaced, List.flatMap_cons, none, words_of_solid offset, width,
      words_of_solid state, List.nil_append, List.singleton_append]

/-- The line of a block is a row that tells of the block. -/
theorem blockLine_spec (view : BlockView) : ∃ row, (blockLine view).toList = row ++ ['\n']
    ∧ '\n' ∉ row ∧ view.Tells row := by
  have same (text : String) : toString text = text := rfl
  have flags := (solid_flagsText view).newline_not_mem
  cases kind : view.kind with
  | allocated payloadSize =>
    have free : view.isFree = false := by simp [BlockView.isFree, kind]
    refine tells_of_cells view [(flagsText view).toList, "payload".toList,
      (toString payloadSize).toList] (by simp [blockLine, kind, free, same, spaced]) ?_
    simp only [List.forall_mem_cons]
    exact ⟨flags, by decide, (solid_toString payloadSize).newline_not_mem, List.forall_mem_nil _⟩
  | free next prev footer =>
    have free : view.isFree = true := by simp [BlockView.isFree, kind]
    refine tells_of_cells view [[], (flagsText view).toList, "next".toList, (linkText next).toList,
      "prev".toList, (linkText prev).toList] (by simp [blockLine, kind, free, same, spaced]) ?_
    simp only [List.forall_mem_cons]
    exact ⟨List.not_mem_nil, flags, by decide, (solid_linkText next).newline_not_mem, by decide,
      (solid_linkText prev).newline_not_mem, List.forall_mem_nil _⟩

/-- The line of a bucket, cut into cells. -/
def bucketCells (bucket : Bucket) (members : List Block) : List (List Char) :=
  [[], "bucket".toList, (alignRight 2 (toString bucket.val)).toList,
    '[' :: (toString bucket.lower).toList ++ [','], bucket.upperText.toList ++ [']', ':'],
    " -> ".toList.intercalate (members.map fun block => (hex block.offset).toList)]

theorem toList_bucketLine (bucket : Bucket) (members : List Block) (listed : members ≠ []) :
    (bucketLine bucket members).toList = spaced (bucketCells bucket members) ++ ['\n'] := by
  have same (text : String) : toString text = text := rfl
  have some : members.isEmpty = false := by simpa using listed
  simp only [bucketLine, bucketCells, some, Bucket.upperText]
  cases bucket.upper? <;> simp [same, spaced, Function.comp_def]

/-- The line of a bucket is a row that shows the bucket. -/
theorem bucketLine_spec (bucket : Bucket) (members : List Block) (listed : members ≠ []) :
    ∃ row, (bucketLine bucket members).toList = row ++ ['\n'] ∧ '\n' ∉ row
      ∧ bucket.Lists members row := by
  have marks : Solid "bucket".toList ∧ Solid ['['] ∧ Solid [','] ∧ Solid [']', ':'] := by decide
  obtain ⟨name, opens, comma, closes⟩ := marks
  obtain ⟨rank, one⟩ := words_alignRight (solid_toString bucket.val) 2
  have lower : Solid ('[' :: (toString bucket.lower).toList ++ [',']) :=
    (opens.append (solid_toString bucket.lower)).append comma
  have upper : Solid (bucket.upperText.toList ++ [']', ':']) :=
    bucket.solid_upperText.append closes
  have offsets : ∀ text ∈ members.map fun block => (hex block.offset).toList,
      Solid text ∧ looksHex text = true :=
    List.forall_mem_map.mpr fun block _ => ⟨solid_hex block.offset, looksHex_hex block.offset⟩
  obtain ⟨arrows, flat⟩ := words_arrows _ fun text member => (offsets text member).1
  have row : words (spaced (bucketCells bucket members)) =
      "bucket".toList :: (toString bucket.val).toList
        :: ('[' :: (toString bucket.lower).toList ++ [','])
        :: (bucket.upperText.toList ++ [']', ':'])
        :: (members.map fun block => (hex block.offset).toList).intersperse ['-', '>'] := by
    have none : words [] = [] := by rw [words]
    rw [words_spaced, bucketCells]
    simp only [List.flatMap_cons, List.flatMap_nil, none, words_of_solid name, rank,
      words_of_solid lower, words_of_solid upper, arrows, List.nil_append, List.singleton_append,
      List.append_nil]
  refine ⟨_, toList_bucketLine bucket members listed, newline_not_mem_spaced ?_, ⟨_, row⟩, ?_⟩
  · rw [bucketCells]
    simp only [List.forall_mem_cons]
    exact ⟨List.not_mem_nil, name.newline_not_mem, one, lower.newline_not_mem,
      upper.newline_not_mem, flat, List.forall_mem_nil _⟩
  · -- Only the words of the members start as an offset does.
    have arrow : looksHex ['-', '>'] = false := rfl
    have place := looksHex_of_not_mem (mark_not_mem_toString bucket.val)
    have ending : looksHex (bucket.upperText.toList ++ [']', ':']) = false :=
      looksHex_of_not_mem fun member => (List.mem_append.mp member).elim
        bucket.mark_not_mem_upperText (by decide)
    rw [row]
    simp only [List.filter_cons, place, ending]
    exact filter_intersperse _ (fun text member => (offsets text member).2) arrow

/-- The first line, which is about the heap as a whole. -/
def headLine (hi : Nat) : String :=
  s!"heap [0x0, {hex hi}) {hi} bytes"

theorem newline_not_mem_headLine (hi : Nat) : '\n' ∉ (headLine hi).toList := by
  have limit := (solid_hex hi).newline_not_mem
  have size := (solid_toString hi).newline_not_mem
  have same (text : String) : toString text = text := rfl
  simp only [headLine, same, String.toList_append, List.mem_append, limit, size]
  decide

variable {heap : Heap} {layout : Layout}

theorem dump_eq (describes : layout.Describes heap.arena heap.lists) :
    heap.dump = .ok (headLine heap.arena.hi ++ "\n"
      ++ String.join ((layout.blocks.map (·.view heap.arena)).map blockLine)
      ++ String.join (Bucket.all.map fun bucket =>
        bucketLine bucket ((layout.chains bucket).map Block.mk))) := by
  have same (text : String) : toString text = text := rfl
  have read (bucket : Bucket) : (do
      return bucketLine bucket (← heap.lists.members heap.arena bucket) : Except Fault String) =
        pure (bucketLine bucket ((layout.chains bucket).map Block.mk)) := by
    rw [except_bind_of_ok (describes.members bucket)]
  have ending : " bytes\n" = " bytes" ++ "\n" := by decide
  unfold dump
  simp only [except_bind_of_ok (blocks_of_describes describes), read, List.mapM_pure, pure_bind,
    headLine, same, ending, ← String.append_assoc]
  rfl

/-- A dump in rows: one for the heap, one for each block in address order, and one for each bucket
that has members. -/
theorem dump_of_describes (describes : layout.Describes heap.arena heap.lists) :
    ∃ text heading shown rows, heap.dump = .ok text
      ∧ lines text.toList = heading :: shown ++ rows
      ∧ List.Forall₂ BlockView.Tells (layout.blocks.map (·.view heap.arena)) shown
      ∧ List.Forall₂ (fun bucket row => bucket.Lists ((layout.chains bucket).map Block.mk) row)
        (Bucket.all.filter fun bucket => !(layout.chains bucket).isEmpty) rows := by
  obtain ⟨shown, printed, plain, tells⟩ :=
    exists_rows (layout.blocks.map (·.view heap.arena)) fun view _ => blockLine_spec view
  obtain ⟨rows, listed, flat, lists⟩ :=
    exists_rows (Bucket.all.filter fun bucket => !(layout.chains bucket).isEmpty)
      fun bucket member => bucketLine_spec bucket ((layout.chains bucket).map Block.mk) (by
        simpa using (List.mem_filter.mp member).2)
  have silent (bucket : Bucket) (empty : (!(layout.chains bucket).isEmpty) = false) :
      bucketLine bucket ((layout.chains bucket).map Block.mk) = "" := by
    simp_all [bucketLine]
  refine ⟨_, (headLine heap.arena.hi).toList, shown, rows, dump_eq describes, ?_, tells, lists⟩
  have whole : ∀ row ∈ shown ++ rows, '\n' ∉ row := List.forall_mem_append.mpr ⟨plain, flat⟩
  rw [← join_filter Bucket.all silent]
  simp only [String.toList_append, printed, listed]
  rw [List.append_assoc, List.append_assoc, ← List.flatMap_append]
  exact (lines_append (newline_not_mem_headLine heap.arena.hi) _).trans
    (congrArg _ (lines_flatMap _ whole))

end Heap

end BoundaryTag
