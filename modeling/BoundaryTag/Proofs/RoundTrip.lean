import BoundaryTag.Proofs.Grammar

/-!
# Printing and parsing

A trace can be written in many ways. Its requests go on a line each, in order, as a letter and
decimal numbers. There are blanks between these words and there may be more of them around; what is
behind a number sign is a remark. There may be lines without words anywhere and lines with a real
number in front of all requests, and a line ends at a line feed, in front of which there may be a
carriage return, or at the end of the text.

Whichever way is taken, parsing gives the trace back. The words of a line are those that were laid
out on it, since neither a request nor a real number has a blank or a number sign inside, so each
line is read as what it was written for.
-/
namespace BoundaryTag

open Text

/-! ## Written traces -/

/-- The letter of a request. -/
def Request.kind : Request → Char
  | .allocate _ _ => 'a'
  | .resize _ _ => 'r'
  | .release _ => 'f'

/-- The numbers of a request. -/
def Request.numbers : Request → List Nat
  | .allocate id size => [id, size]
  | .resize id size => [id, size]
  | .release id => [id]

/-- The words that a request is written with. -/
def Request.words (request : Request) : List (List Char) :=
  [request.kind] :: request.numbers.map fun number => (toString number).toList

/-- Whether all numbers of a request are machine words. -/
def Request.InRange (request : Request) : Prop :=
  ∀ number ∈ request.numbers, number < wordLimit

instance (request : Request) : Decidable request.InRange :=
  inferInstanceAs (Decidable (∀ number ∈ request.numbers, number < wordLimit))

/-- A request with one space between its words. -/
def Request.line : Request → String
  | .allocate id size => s!"a {id} {size}"
  | .resize id size => s!"r {id} {size}"
  | .release id => s!"f {id}"

namespace Trace

/-- The requests on a line each and nothing else. -/
def render (trace : Trace) : String :=
  String.join (trace.map fun request => request.line ++ "\n")

/-- Nothing, or a number sign and any text behind it on the line. -/
inductive Remark : List Char → Prop
  | none : Remark []
  | some {text : List Char} : '\n' ∉ text → Remark ('#' :: text)

/-- A line on which words are laid out. There is a blank between two words, and there may be more
blanks before, between and behind them and a remark at the end. -/
inductive LaidOut : List (List Char) → List Char → Prop
  | done {remark : List Char} : Remark remark → LaidOut [] remark
  | blank {words : List (List Char)} {line : List Char} {space : Char} :
      isBlank space = true → space ≠ '\n' → LaidOut words line → LaidOut words (space :: line)
  | last {word remark : List Char} : Remark remark → LaidOut [word] (word ++ remark)
  | word {word : List Char} {words : List (List Char)} {line : List Char} {space : Char} :
      isBlank space = true → space ≠ '\n' → LaidOut words line →
        LaidOut (word :: words) (word ++ space :: line)

/-- A line of a written trace and the request on it, if there is one. -/
inductive Row (headingAllowed : Bool) : Option Request → List Char → Prop
  | empty {line : List Char} : LaidOut [] line → Row headingAllowed none line
  | heading {number line : List Char} : headingAllowed = true → isReal number = true →
      LaidOut [number] line → Row headingAllowed none line
  | request {request : Request} {line : List Char} : LaidOut request.words line →
      Row headingAllowed (some request) line

/-- The ways to end a line. -/
def lineEnds : List (List Char) :=
  [['\n'], ['\r', '\n']]

/-- A text that writes requests on lines of their own. The last line need not have an end. -/
inductive Written : Bool → Trace → List Char → Prop
  | nothing {headingAllowed : Bool} : Written headingAllowed [] []
  | last {headingAllowed : Bool} {found : Option Request} {line : List Char} :
      Row headingAllowed found line → Written headingAllowed found.toList line
  | row {headingAllowed : Bool} {found : Option Request} {line lineEnd : List Char}
      {trace : Trace} {text : List Char} : Row headingAllowed found line → lineEnd ∈ lineEnds →
      Written (headingAllowed && found.isNone) trace text →
        Written headingAllowed (found.toList ++ trace) (line ++ lineEnd ++ text)

/-- Whether a text writes a trace, with headings above the first request only. -/
def WrittenAs (trace : Trace) (text : String) : Prop :=
  Written true trace text.toList

variable {char : Char} {word number line text : List Char} {words : List (List Char)}
  {request : Request} {found : Option Request} {trace : Trace} {allowed : Bool}

/-! ## Plain words -/

/-- A character that ends no word and starts no remark. -/
def Inked (char : Char) : Prop :=
  isBlank char = false ∧ char ≠ '#'

/-- A word that stays one word whatever it is laid out with. -/
def Plain (word : List Char) : Prop :=
  word ≠ [] ∧ ∀ char ∈ word, Inked char

instance (char : Char) : Decidable (Inked char) :=
  inferInstanceAs (Decidable (_ ∧ _))

theorem Plain.solid (plain : Plain word) : Solid word :=
  ⟨plain.1, fun char member => (plain.2 char member).1⟩

/-- In front of a number sign a plain word is whole. -/
theorem Plain.takeWhile_append (plain : Plain word) (rest : List Char) :
    (word ++ rest).takeWhile (· != '#') = word ++ rest.takeWhile (· != '#') := by
  apply List.takeWhile_append_of_pos
  intro char member
  simp [(plain.2 char member).2]

theorem inked_of_visible (above : 36 ≤ char.toNat) (below : char.toNat ≤ 126) : Inked char := by
  have mark : '#'.toNat = 35 := rfl
  refine ⟨by simp [isBlank, CodeRanges.contains, blankRanges]; omega, ?_⟩
  rintro rfl
  omega

theorem inked_of_isDigit (digit : char.isDigit = true) : Inked char := by
  simp only [Char.isDigit, Bool.and_eq_true, decide_eq_true_eq, UInt32.le_iff_toNat_le] at digit
  exact inked_of_visible (Nat.le_trans (by decide) digit.1) (Nat.le_trans digit.2 (by decide))

/-- Only letters have a lower case of their own, and they are inked too. -/
theorem Inked.of_toLower (inked : Inked char.toLower) : Inked char := by
  unfold Char.toLower at inked
  split at inked
  case isTrue upper =>
    simp only [ge_iff_le, UInt32.le_iff_toNat_le] at upper
    exact inked_of_visible (Nat.le_trans (by decide) upper.1) (Nat.le_trans upper.2 (by decide))
  case isFalse => exact inked

theorem plain_toString (number : Nat) : Plain (toString number).toList := by
  rw [toList_toString]
  refine ⟨Nat.toDigits_ne_nil, fun char member => inked_of_isDigit ?_⟩
  exact Nat.isDigit_of_mem_toDigits (by decide) (by decide) member

/-- The words of a request are plain. -/
theorem plain_of_request (request : Request) : ∀ word ∈ request.words, Plain word := by
  have letter : Inked request.kind := by cases request <;> simp only [Request.kind] <;> decide
  rw [Request.words, List.forall_mem_cons]
  refine ⟨⟨by simp, by simpa using letter⟩, fun word member => ?_⟩
  obtain ⟨number, -, rfl⟩ := List.mem_map.mp member
  exact plain_toString number

/-! ### Real numbers -/

theorem inked_of_isDigits (digits : isDigits text = true) : ∀ char ∈ text, Inked char := by
  simp only [isDigits, Bool.and_eq_true, List.all_eq_true] at digits
  exact fun char member => inked_of_isDigit (digits.2 char member)

theorem inked_of_dropSign (inked : ∀ char ∈ dropSign text, Inked char) :
    ∀ char ∈ text, Inked char := by
  unfold dropSign at inked
  split at inked
  · exact List.forall_mem_cons.mpr ⟨by decide, inked⟩
  · exact List.forall_mem_cons.mpr ⟨by decide, inked⟩
  · exact inked

theorem inked_of_dropWhile (inked : ∀ char ∈ text.dropWhile Char.isDigit, Inked char) :
    ∀ char ∈ text, Inked char := by
  intro char member
  rw [← List.takeWhile_append_dropWhile (p := Char.isDigit) (l := text), List.mem_append] at member
  rcases member with digits | rest
  · exact inked_of_isDigit (List.mem_takeWhile_imp digits)
  · exact inked char rest

theorem inked_of_isExponent (exponent : isExponent text = true) : ∀ char ∈ text, Inked char := by
  cases text with
  | nil => simp
  | cons mark rest =>
    simp only [isExponent, Bool.and_eq_true, Bool.or_eq_true, beq_iff_eq] at exponent
    obtain ⟨rfl | rfl, digits⟩ := exponent
    all_goals
      exact List.forall_mem_cons.mpr ⟨by decide, inked_of_dropSign (inked_of_isDigits digits)⟩

theorem inked_of_isUnsignedDecimal (decimal : isUnsignedDecimal text = true) :
    ∀ char ∈ text, Inked char := by
  apply inked_of_dropWhile
  unfold isUnsignedDecimal at decimal
  simp only at decimal
  split at decimal
  case h_1 rest cut =>
    rw [cut, List.forall_mem_cons]
    simp only [Bool.and_eq_true] at decimal
    exact ⟨by decide, inked_of_dropWhile (inked_of_isExponent decimal.2)⟩
  case h_2 =>
    simp only [Bool.and_eq_true] at decimal
    exact inked_of_isExponent decimal.2

/-- A real number is a plain word. -/
theorem plain_of_isReal (real : isReal number = true) : Plain number := by
  have nonempty : number ≠ [] := by
    rintro rfl
    exact absurd real (by decide)
  refine ⟨nonempty, inked_of_dropSign ?_⟩
  simp only [isReal, Bool.or_eq_true] at real
  rcases real with named | decimal
  · -- Each letter is the lower case of one in a name.
    intro char member
    apply Inked.of_toLower
    have letters : namedReals.all (fun name => name.toList.all fun letter => Inked letter) := by
      decide
    simp only [List.all_eq_true, decide_eq_true_eq] at letters
    apply letters _ (List.contains_iff_mem.mp named)
    rw [String.toList_ofList]
    exact List.mem_map_of_mem member
  · exact inked_of_isUnsignedDecimal decimal

/-! ## Lines -/

theorem Remark.takeWhile (remark : Remark text) : text.takeWhile (· != '#') = [] := by
  cases remark with
  | none => rfl
  | some => simp

theorem takeWhile_of_blank (blank : isBlank char = true) (rest : List Char) :
    (char :: rest).takeWhile (· != '#') = char :: rest.takeWhile (· != '#') := by
  have different : char ≠ '#' := by
    rintro rfl
    exact absurd blank (by decide)
  simp [different]

/-- The words of a line are those that are laid out on it. -/
theorem LaidOut.contentWords_eq (laid : LaidOut words line) (plain : ∀ word ∈ words, Plain word) :
    contentWords line = words := by
  unfold contentWords
  induction laid with
  | done remark => rw [remark.takeWhile, Text.words]
  | @blank words line space blank _ _ ih =>
    rw [takeWhile_of_blank blank, words_of_blank blank, ih plain]
  | @last word remark ends =>
    have plain := plain word (List.mem_singleton_self word)
    rw [plain.takeWhile_append, ends.takeWhile, List.append_nil, words_of_solid plain.solid]
  | @word word words line space blank _ _ ih =>
    obtain ⟨plain, others⟩ := List.forall_mem_cons.mp plain
    rw [plain.takeWhile_append, takeWhile_of_blank blank, words_solid_append plain.solid blank,
      ih others]

theorem Remark.newline_not_mem (remark : Remark text) : '\n' ∉ text := by
  cases remark with
  | none => simp
  | some absent => simp [absent]

theorem LaidOut.newline_not_mem (laid : LaidOut words line)
    (plain : ∀ word ∈ words, Plain word) : '\n' ∉ line := by
  induction laid with
  | done remark => exact remark.newline_not_mem
  | blank _ different _ ih => simp [different.symm, ih plain]
  | last ends => simpa [ends.newline_not_mem] using (plain _ (by simp)).solid.newline_not_mem
  | word _ different _ ih =>
    obtain ⟨plain, others⟩ := List.forall_mem_cons.mp plain
    simp [plain.solid.newline_not_mem, different.symm, ih others]

/-- A carriage return behind a line is one more blank or belongs to the remark. -/
theorem LaidOut.append_return (laid : LaidOut words line) : LaidOut words (line ++ ['\r']) := by
  have blank : isBlank '\r' = true := by decide
  have ending : LaidOut [] ['\r'] := .blank blank (by decide) (.done .none)
  induction laid with
  | @done remark ends =>
    cases ends with
    | none => exact ending
    | some absent => exact .done (.some (by simp [absent]))
  | blank space different _ ih => exact .blank space different ih
  | @last word remark ends =>
    cases ends with
    | none =>
      rw [List.append_nil]
      exact .word blank (by decide) (.done .none)
    | some absent =>
      rw [List.append_assoc]
      exact .last (.some (by simp [absent]))
  | word space different _ ih =>
    rw [List.append_assoc, List.cons_append]
    exact .word space different ih

theorem laidOut_spaced (word : List Char) (words : List (List Char)) :
    LaidOut (word :: words) (word ++ spaced words) := by
  induction words generalizing word with
  | nil => exact .last .none
  | cons next words ih => exact .word (by decide) (by decide) (ih next)

theorem toList_line (request : Request) :
    request.line.toList = [request.kind]
      ++ spaced (request.numbers.map fun number => (toString number).toList) := by
  cases request <;> simp [Request.line, Request.kind, Request.numbers, spaced, toString]

/-! ## Rows -/

theorem word?_toString {number : Nat} (small : number < wordLimit) :
    word? (toString number).toList = some number := by
  rw [word?, natural?_toString]
  simp [small]

theorem written?_words (inRange : request.InRange) : written? request.words = some request := by
  have reads : ∀ number ∈ request.numbers, word? (toString number).toList = some number :=
    fun number member => word?_toString (inRange number member)
  cases request
  all_goals
    simp only [Request.numbers, List.forall_mem_cons] at reads
    simp only [written?, Request.words, Request.kind, Request.numbers, List.map, reads]
    rfl

/-- A line is read as what it was written for. -/
theorem Row.parseLine_eq (row : Row allowed found line)
    (inRange : ∀ request ∈ found, request.InRange) : parseLine allowed line = .ok found := by
  cases row with
  | empty laid =>
    have wordless : contentWords line = [] := laid.contentWords_eq (by simp)
    simp [parseLine, wordless]
  | @heading number _ may real laid =>
    have alone : contentWords line = [number] :=
      laid.contentWords_eq (by simpa using plain_of_isReal real)
    simp [parseLine, alone, may, real]
  | @request request _ laid =>
    have exact : contentWords line = request.words :=
      laid.contentWords_eq (plain_of_request request)
    rw [parseLine_eq_some_iff, requestOn?, ← Trace.contentWords_eq, exact]
    exact written?_words (inRange request rfl)

theorem Row.newline_not_mem (row : Row allowed found line) : '\n' ∉ line := by
  cases row with
  | empty laid => exact laid.newline_not_mem (by simp)
  | heading _ real laid => exact laid.newline_not_mem (by simpa using plain_of_isReal real)
  | request laid => exact laid.newline_not_mem (plain_of_request _)

theorem Row.append_return (row : Row allowed found line) : Row allowed found (line ++ ['\r']) := by
  cases row with
  | empty laid => exact .empty laid.append_return
  | heading may real laid => exact .heading may real laid.append_return
  | request laid => exact .request laid.append_return

/-! ## Texts -/

theorem parseLines_of_parseLine (parsed : parseLine allowed line = .ok found) (count : Nat)
    (rest : List (List Char)) : parseLines count allowed (line :: rest)
      = (found.toList ++ ·) <$> parseLines (count + 1) (allowed && found.isNone) rest := by
  rw [parseLines, parsed]
  cases found with
  | none =>
    rw [Option.isNone_none, Bool.and_true]
    exact (id_map (parseLines (count + 1) allowed rest)).symm
  | some request => simp

/-- The lines of a written trace are read as its requests. The induction is on the rows. -/
theorem Written.parseLines_eq (written : Written allowed trace text)
    (inRange : ∀ request ∈ trace, request.InRange) (count : Nat) :
    parseLines count allowed (lines text) = .ok trace := by
  induction written generalizing count with
  | nothing => simp [lines, parseLines]
  | @last allowed found line row =>
    have parsed := row.parseLine_eq (by simpa using inRange)
    by_cases nonempty : line = []
    · -- What is written on an empty line is nothing.
      subst nonempty
      have empty : parseLine allowed [] = .ok none := by simp [parseLine, contentWords, Text.words]
      rw [empty] at parsed
      cases parsed
      simp [lines, parseLines]
    · rw [lines_of_newline_not_mem row.newline_not_mem nonempty, parseLines_of_parseLine parsed,
        parseLines]
      simp [Functor.map, Except.map]
  | @row allowed found line lineEnd trace text row ends _ ih =>
    obtain ⟨here, others⟩ := List.forall_mem_append.mp inRange
    -- Either way the row stands in front of a line feed.
    obtain ⟨whole, row, same⟩ : ∃ whole, Row allowed found whole
        ∧ line ++ lineEnd ++ text = whole ++ '\n' :: text := by
      simp only [lineEnds, List.mem_cons, List.not_mem_nil, or_false] at ends
      rcases ends with rfl | rfl
      · exact ⟨line, row, by simp⟩
      · exact ⟨line ++ ['\r'], row.append_return, by simp⟩
    rw [same, lines_append row.newline_not_mem,
      parseLines_of_parseLine (row.parseLine_eq (by simpa using here)), ih others]
    rfl

/-- The plain way to write a trace is one of them. -/
theorem writtenAs_render (trace : Trace) : trace.WrittenAs trace.render := by
  suffices written : ∀ allowed, Written allowed trace trace.render.toList from written true
  induction trace with
  | nil => exact fun _ => .nothing
  | cons request trace ih =>
    intro allowed
    have row : Row allowed (some request) request.line.toList := by
      rw [toList_line]
      exact .request (laidOut_spaced _ _)
    have rest := ih (allowed && (some request).isNone)
    have ended : ['\n'] ∈ lineEnds := by simp [lineEnds]
    simpa [render, String.toList_join] using Written.row row ended rest

/-- A trace of machine words is read from whatever text it is written as, and from its requests on
a line each in particular. -/
theorem parse_undoes_printing (trace : Trace) (inRange : ∀ request ∈ trace, request.InRange) :
    parse trace.render = .ok trace
      ∧ ∀ text : String, trace.WrittenAs text → parse text = .ok trace := by
  have reads (text : String) (written : trace.WrittenAs text) : parse text = .ok trace :=
    Written.parseLines_eq written inRange 1
  exact ⟨reads _ (writtenAs_render trace), reads⟩

/-- Three requests, one of them with the greatest machine word. -/
def decorated : Trace :=
  [.allocate 0 18446744073709551615, .resize 0 0, .release 0]

/-- The requests below a heading, with lines without words, remarks that look like requests, a blank
that is no ASCII character, both ends of a line and a last line without an end. -/
def decoratedText : String :=
  "\t20 # a 9 9\r\n\n a\u00a00\t18446744073709551615\r\n# f 0\nr 0 0#x\nf  0"

/-- The requests are read from the text whatever stands around them. -/
theorem parse_undoes_decorated_printing :
    (∀ request ∈ decorated, request.InRange) ∧ decorated.WrittenAs decoratedText
      ∧ parse decoratedText = .ok decorated := by
  have inRange : ∀ request ∈ decorated, request.InRange := by decide
  have feed : ['\n'] ∈ lineEnds := by decide
  have returned : ['\r', '\n'] ∈ lineEnds := by decide
  have heading : Row true none "\t20 # a 9 9".toList := by
    have laid : LaidOut ["20".toList] "\t20 # a 9 9".toList :=
      .blank (by decide) (by decide) (.word (by decide) (by decide) (.done (.some (by decide))))
    exact .heading rfl (by decide) laid
  have empty : Row true none [] := .empty (.done .none)
  have allocation : Row true (some (.allocate 0 18446744073709551615))
      " a\u00a00\t18446744073709551615".toList := by
    have cells : " a\u00a00\t18446744073709551615".toList = ' ' :: (['a'] ++ '\u00a0' :: (['0']
        ++ '\t' :: ("18446744073709551615".toList ++ []))) := by decide
    have laid : LaidOut [['a'], ['0'], "18446744073709551615".toList]
        " a\u00a00\t18446744073709551615".toList := by
      rw [cells]
      exact .blank (by decide) (by decide) (.word (by decide) (by decide) (.word (by decide)
        (by decide) (.last .none)))
    exact .request laid
  have remark : Row false none "# f 0".toList := .empty (.done (.some (by decide)))
  have resizing : Row false (some (.resize 0 0)) "r 0 0#x".toList := by
    have laid : LaidOut [['r'], ['0'], ['0']] "r 0 0#x".toList :=
      .word (by decide) (by decide) (.word (by decide) (by decide) (.last (.some (by decide))))
    exact .request laid
  have releasing : Row false (some (.release 0)) "f  0".toList := by
    have laid : LaidOut [['f'], ['0']] "f  0".toList :=
      .word (by decide) (by decide) (.blank (by decide) (by decide) (.last .none))
    exact .request laid
  have rows : decoratedText.toList = "\t20 # a 9 9".toList ++ ['\r', '\n'] ++ ([] ++ ['\n']
      ++ (" a\u00a00\t18446744073709551615".toList ++ ['\r', '\n'] ++ ("# f 0".toList ++ ['\n']
      ++ ("r 0 0#x".toList ++ ['\n'] ++ "f  0".toList)))) := by decide
  have written : decorated.WrittenAs decoratedText := by
    rw [WrittenAs, rows]
    exact .row heading returned (.row empty feed (.row allocation returned (.row remark feed
      (.row resizing feed (.last releasing)))))
  exact ⟨inRange, written, (parse_undoes_printing _ inRange).2 _ written⟩
end Trace
end BoundaryTag
