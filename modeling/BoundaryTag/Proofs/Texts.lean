import BoundaryTag.Text.Blank
import BoundaryTag.Text.Columns
import BoundaryTag.Text.Hex
import BoundaryTag.Text.Numeral
import Mathlib.Data.List.DropRight
import Mathlib.Data.List.Forall2
import Mathlib.Data.List.TakeWhile

/-!
# Reading printed text

Printed text is read again by cutting it into lines and words. A line ends at a line feed, a word at
a blank, and numbers have neither of them in their digits, so what has been printed side by side is
read side by side, and every number is read as the number that was printed.
-/
namespace BoundaryTag.Text

variable {text line left right rest : List Char} {char : Char}

/-! ## Lines -/

theorem ne_newline (absent : '\n' ∉ line) : ∀ char ∈ line, (char != '\n') = true := by
  intro char member
  simpa using fun same : char = '\n' => absent (same ▸ member)

theorem lines_append (absent : '\n' ∉ line) (rest : List Char) :
    lines (line ++ '\n' :: rest) = line :: lines rest := by
  have plain := ne_newline absent
  cases line with
  | nil => simp [lines]
  | cons first tail =>
    rw [List.cons_append, lines, ← List.cons_append, List.takeWhile_append_of_pos plain,
      List.dropWhile_append_of_pos plain]
    simp

theorem lines_of_newline_not_mem (absent : '\n' ∉ line) (nonempty : line ≠ []) :
    lines line = [line] := by
  obtain ⟨first, rest, rfl⟩ := List.exists_cons_of_ne_nil nonempty
  have plain := ne_newline absent
  rw [lines, List.takeWhile_eq_self_iff.mpr plain, List.dropWhile_eq_nil_iff.mpr plain,
    List.drop_nil, lines]

theorem lines_flatMap (rows : List (List Char)) (absent : ∀ row ∈ rows, '\n' ∉ row) :
    lines (rows.flatMap (· ++ ['\n'])) = rows := by
  induction rows with
  | nil => simp [lines]
  | cons row rows ih =>
    obtain ⟨first, others⟩ := List.forall_mem_cons.mp absent
    rw [List.flatMap_cons, List.append_assoc, List.singleton_append, lines_append first, ih others]

theorem newline_not_mem_of_mem_lines (member : line ∈ lines text) : '\n' ∉ line := by
  induction text using lines.induct with
  | case1 => simp [lines] at member
  | case2 first rest ih =>
    rw [lines, List.mem_cons] at member
    rcases member with rfl | later
    · exact fun inside => absurd (List.mem_takeWhile_imp inside) (by decide)
    · exact ih later

/-- Items that are printed on a line each are read on a line each. -/
theorem exists_rows {Item : Type} {print : Item → String} {reads : Item → List Char → Prop}
    (items : List Item) (printed : ∀ item ∈ items, ∃ row, (print item).toList = row ++ ['\n']
      ∧ '\n' ∉ row ∧ reads item row) :
    ∃ rows, (String.join (items.map print)).toList = rows.flatMap (· ++ ['\n'])
      ∧ (∀ row ∈ rows, '\n' ∉ row) ∧ List.Forall₂ reads items rows := by
  induction items with
  | nil => exact ⟨[], rfl, nofun, .nil⟩
  | cons item items ih =>
    obtain ⟨⟨row, same, absent, first⟩, others⟩ := List.forall_mem_cons.mp printed
    obtain ⟨rows, joined, none, rest⟩ := ih others
    refine ⟨row :: rows, ?_, List.forall_mem_cons.mpr ⟨absent, none⟩, .cons first rest⟩
    rw [String.toList_join] at joined ⊢
    rw [List.map_cons, List.flatMap_cons, List.flatMap_cons, same, joined]

/-- Items that print nothing may be left out. -/
theorem join_filter {Item : Type} {print : Item → String} {keep : Item → Bool} (items : List Item)
    (silent : ∀ item, keep item = false → print item = "") :
    String.join ((items.filter keep).map print) = String.join (items.map print) := by
  induction items with
  | nil => rfl
  | cons item items ih =>
    cases kept : keep item with
    | true => simp [kept, ih]
    | false => simp [kept, ih, silent item kept]

/-! ## Words -/

/-- A text that is read as one word. -/
def Solid (text : List Char) : Prop :=
  text ≠ [] ∧ ∀ char ∈ text, isBlank char = false

theorem solid_iff (text : List Char) :
    (!text.isEmpty && text.all (!isBlank ·)) = true ↔ Solid text := by
  simp [Solid]

instance (text : List Char) : Decidable (Solid text) :=
  decidable_of_iff _ (solid_iff text)

theorem words_of_blank (blank : isBlank char = true) (text : List Char) :
    words (char :: text) = words text := by
  rw [words, if_pos blank]

/-- A run of characters that are not blank ends at a blank. -/
theorem run_append (blank : isBlank char = true) (left right : List Char) :
    (left ++ char :: right).takeWhile (!isBlank ·) = left.takeWhile (!isBlank ·)
      ∧ (left ++ char :: right).dropWhile (!isBlank ·)
        = left.dropWhile (!isBlank ·) ++ char :: right := by
  induction left with
  | nil => simp [blank]
  | cons first rest ih => cases spaced : isBlank first <;> simp [spaced, ih]

/-- A blank ends a word. The induction is on the words before it. -/
theorem words_append (blank : isBlank char = true) (left right : List Char) :
    words (left ++ char :: right) = words left ++ words right := by
  induction left using words.induct with
  | case1 => rw [List.nil_append, words_of_blank blank, words, List.nil_append]
  | case2 first rest spaced ih =>
    rw [List.cons_append, words_of_blank spaced, words_of_blank spaced, ih]
  | case3 first rest solid ih =>
    obtain ⟨run, remains⟩ := run_append blank rest right
    rw [List.cons_append, words, if_neg solid, words, if_neg solid, run, remains, ih,
      List.cons_append]

theorem words_of_solid (solid : Solid text) : words text = [text] := by
  obtain ⟨nonempty, unbroken⟩ := solid
  cases text with
  | nil => exact absurd rfl nonempty
  | cons first rest =>
    obtain ⟨start, unbroken⟩ := List.forall_mem_cons.mp unbroken
    have run : rest.takeWhile (!isBlank ·) = rest :=
      List.takeWhile_eq_self_iff.mpr fun char member => by simp [unbroken char member]
    have remains : rest.dropWhile (!isBlank ·) = [] :=
      List.dropWhile_eq_nil_iff.mpr fun char member => by simp [unbroken char member]
    rw [words, if_neg (by simp [start]), run, remains, words]

theorem words_solid_append (solid : Solid text) (blank : isBlank char = true) (rest : List Char) :
    words (text ++ char :: rest) = text :: words rest := by
  rw [words_append blank, words_of_solid solid, List.singleton_append]

theorem words_replicate_append (count : Nat) (text : List Char) :
    words (List.replicate count ' ' ++ text) = words text := by
  induction count with
  | zero => rfl
  | succ count ih => rw [List.replicate_succ, List.cons_append, words_of_blank (by decide), ih]

theorem words_eq_nil_iff (text : List Char) : words text = [] ↔ ∀ char ∈ text, isBlank char := by
  induction text using words.induct with
  | case1 => simp [words]
  | case2 first rest blank ih =>
    rw [words_of_blank blank, ih, List.forall_mem_cons, and_iff_right blank]
  | case3 first rest solid ih => simp [words, solid]

/-- A text without the blanks at its ends. -/
def trim (text : List Char) : List Char :=
  (text.dropWhile isBlank).rdropWhile isBlank

theorem words_dropWhile (text : List Char) : words (text.dropWhile isBlank) = words text := by
  induction text with
  | nil => rfl
  | cons first rest ih =>
    by_cases blank : isBlank first
    · rw [List.dropWhile_cons_of_pos blank, words_of_blank blank, ih]
    · rw [List.dropWhile_cons_of_neg blank]

theorem words_rdropWhile (text : List Char) : words (text.rdropWhile isBlank) = words text := by
  induction text using List.reverseRecOn with
  | nil => rfl
  | append_singleton front last ih =>
    by_cases blank : isBlank last
    · rw [List.rdropWhile_concat_pos _ _ _ blank, words_append blank, ih, words, List.append_nil]
    · rw [List.rdropWhile_concat_neg _ _ _ blank]

theorem words_trim (text : List Char) : words (trim text) = words text := by
  rw [trim, words_rdropWhile, words_dropWhile]

theorem trim_eq_nil_iff (text : List Char) : trim text = [] ↔ words text = [] := by
  constructor
  · intro nothing
    rw [← words_trim, nothing, words]
  · intro wordless
    rw [trim, List.dropWhile_eq_nil_iff.mpr ((words_eq_nil_iff text).mp wordless),
      List.rdropWhile_nil]

/-- Cells with a space in front of each of them. -/
def spaced (cells : List (List Char)) : List Char :=
  cells.flatMap (' ' :: ·)

theorem words_spaced (cells : List (List Char)) : words (spaced cells) = cells.flatMap words := by
  have blank : isBlank ' ' = true := by decide
  induction cells with
  | nil => simp [spaced, words]
  | cons cell cells ih =>
    have split : spaced (cell :: cells) = ' ' :: (cell ++ spaced cells) := rfl
    rw [split, words_of_blank blank, List.flatMap_cons, ← ih]
    -- A cell ends at the space in front of the next one, if there is a next one.
    cases cells with
    | nil => simp [spaced, words]
    | cons next cells =>
      have starts : spaced (next :: cells) = ' ' :: (next ++ spaced cells) := rfl
      rw [starts, words_append blank, words_of_blank blank]

theorem newline_not_mem_spaced {cells : List (List Char)} (plain : ∀ cell ∈ cells, '\n' ∉ cell) :
    '\n' ∉ spaced cells := by
  simpa [spaced] using plain

theorem Solid.newline_not_mem (solid : Solid text) : '\n' ∉ text :=
  fun member => absurd (solid.2 _ member) (by decide)

theorem Solid.append (left : Solid text) (right : Solid rest) : Solid (text ++ rest) := by
  refine ⟨by simp [left.1], fun char member => ?_⟩
  rcases List.mem_append.mp member with here | there
  · exact left.2 char here
  · exact right.2 char there

/-! ## Columns -/

theorem toList_pushn (text : String) (char : Char) (count : Nat) :
    (text.pushn char count).toList = text.toList ++ List.replicate count char := by
  rw [String.pushn_eq_repeat_push]
  induction count with
  | zero => simp [Nat.repeat]
  | succ count ih => simp [Nat.repeat, ih, List.replicate_succ']

theorem toList_alignLeft (width : Nat) (text : String) :
    (alignLeft width text).toList = text.toList.rightpad width ' ' := by
  simp [alignLeft, toList_pushn, List.rightpad, String.length_toList]

theorem toList_alignRight (width : Nat) (text : String) :
    (alignRight width text).toList = text.toList.leftpad width ' ' := by
  simp [alignRight, toList_pushn, List.leftpad, String.length_toList]

theorem words_alignRight {text : String} (solid : Solid text.toList) (width : Nat) :
    words (alignRight width text).toList = [text.toList]
      ∧ '\n' ∉ (alignRight width text).toList := by
  rw [toList_alignRight, List.leftpad, words_replicate_append, words_of_solid solid]
  refine ⟨rfl, fun member => ?_⟩
  rcases List.mem_append.mp member with space | inside
  · exact absurd (List.eq_of_mem_replicate space) (by decide)
  · exact solid.newline_not_mem inside

/-! ## Numbers -/

/-- Each digit of a number is one of those of its base. -/
theorem exists_digit {base number : Nat} (real : 1 < base)
    (member : char ∈ Nat.toDigits base number) : ∃ digit < base, char = digit.digitChar := by
  induction number using Nat.base_induction base real with
  | single number small =>
    rw [Nat.toDigits_of_lt_base small, List.mem_singleton] at member
    exact ⟨number, small, member⟩
  | digit number digit small positive ih =>
    rw [← Nat.toDigits_append_toDigits real positive small, Nat.toDigits_of_lt_base small] at member
    rcases List.mem_append.mp member with here | there
    · exact ih here
    · exact ⟨digit, small, List.mem_singleton.mp there⟩

theorem digitChar_spec : ∀ digit < 16,
    isBlank digit.digitChar = false ∧ digit.digitChar ≠ 'x' ∧ digit.digitChar ≠ '+' := by
  decide

theorem solid_toDigits {base : Nat} (real : 1 < base) (small : base ≤ 16) (number : Nat) :
    Solid (Nat.toDigits base number) := by
  refine ⟨Nat.toDigits_ne_nil, fun char member => ?_⟩
  obtain ⟨digit, below, rfl⟩ := exists_digit real member
  exact (digitChar_spec digit (by omega)).1

theorem digitChar_injective : ∀ left < 16, ∀ right < 16,
    left.digitChar = right.digitChar → left = right := by
  decide

/-- No two numbers have the same digits. -/
theorem toDigits_injective {base : Nat} (real : 1 < base) (small : base ≤ 16) :
    Function.Injective (Nat.toDigits base) := by
  intro left right same
  induction left using Nat.base_induction base real generalizing right with
  | single left below =>
    rw [Nat.toDigits_of_lt_base below] at same
    by_cases single : right < base
    · rw [Nat.toDigits_of_lt_base single, List.singleton_inj] at same
      exact digitChar_injective left (by omega) right (by omega) same
    · rw [Nat.toDigits_of_base_le real (Nat.le_of_not_lt single)] at same
      exact absurd (List.append_eq_singleton_iff.mp same.symm) (by simp)
  | digit left digit below positive ih =>
    rw [← Nat.toDigits_append_toDigits real positive below, Nat.toDigits_of_lt_base below] at same
    by_cases single : right < base
    · rw [Nat.toDigits_of_lt_base single] at same
      exact absurd (List.append_eq_singleton_iff.mp same) (by simp)
    · rw [Nat.toDigits_of_base_le real (Nat.le_of_not_lt single)] at same
      -- The last digits agree, and so do the numbers in front of them.
      obtain ⟨upper, last⟩ := List.append_inj' same rfl
      have modulus : right % base < base := Nat.mod_lt right (by omega)
      have final := digitChar_injective digit (by omega) (right % base) (by omega)
        (List.singleton_inj.mp last)
      rw [ih upper, final]
      exact Nat.div_add_mod right base

theorem toList_toString (number : Nat) : (toString number).toList = Nat.toDigits 10 number :=
  Nat.toList_repr

theorem toList_hex (number : Nat) : (hex number).toList = '0' :: 'x' :: Nat.toDigits 16 number := by
  simp [hex, hexDigits]

/-- A printed number is read as what it is. -/
theorem natural?_toString (number : Nat) : natural? (toString number).toList = some number := by
  have decimal : isDigits (Nat.toDigits 10 number) = true := by
    have digits : ∀ char ∈ Nat.toDigits 10 number, char.isDigit = true :=
      fun char => Nat.isDigit_of_mem_toDigits (by decide) (by decide)
    simpa [isDigits] using digits
  have value : digitsValue (Nat.toDigits 10 number) = number := Nat.ofDigitChars_ten_toDigits
  have unsigned (rest : List Char) (signed : Nat.toDigits 10 number = '+' :: rest) : False := by
    rw [signed] at decimal
    exact absurd decimal (by simp [isDigits])
  rw [toList_toString, natural?, decimal, value, if_pos rfl]
  exact unsigned

theorem hex_injective : Function.Injective hex := by
  intro left right same
  have digits := congrArg String.toList same
  rw [toList_hex, toList_hex, List.cons_inj_right, List.cons_inj_right] at digits
  exact toDigits_injective (by decide) (by decide) digits

theorem solid_hex (number : Nat) : Solid (hex number).toList := by
  have mark : Solid ['0', 'x'] := by decide
  rw [toList_hex]
  exact mark.append (solid_toDigits (by decide) (by decide) number)

theorem solid_hexFilled (width number : Nat) : Solid (hexFilled width number).toList := by
  have mark : Solid ['0', 'x'] := by decide
  have digits : Solid (hexDigits number).toList := by
    simpa [hexDigits] using solid_toDigits (by decide) (by decide) number
  simp only [hexFilled, String.toList_append, toList_pushn]
  -- Between the mark and the digits there may be nothing.
  refine ⟨by simp, fun char member => ?_⟩
  simp only [List.mem_append] at member
  rcases member with (here | zeros) | there
  · exact mark.2 char (by simpa using here)
  · rcases zeros with none | zeros
    · simp at none
    · rw [List.eq_of_mem_replicate zeros]
      decide
  · exact digits.2 char there

theorem solid_toString (number : Nat) : Solid (toString number).toList := by
  rw [toList_toString]
  exact solid_toDigits (by decide) (by decide) number

end BoundaryTag.Text
