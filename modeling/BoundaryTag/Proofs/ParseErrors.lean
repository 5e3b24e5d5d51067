import BoundaryTag.Proofs.Grammar
import Mathlib

/-!
# Where parsing stops

The parser reads a text line by line and stops at the first line that is wrong. What it has to say
about that line hangs on the lines up to there alone: those in front of it have been read without a
complaint, and those behind it are never looked at. Lines are counted from one, and each line
counts, also one without words and a heading.

Two lines are as good as each other if the same counts of them. In particular it does not matter
whether a line ends at a line feed alone or at a carriage return and a line feed.
-/
namespace BoundaryTag.Trace

open Text

variable {number count : Nat} {allowed : Bool} {line other : List Char}
  {lines others fore : List (List Char)} {text : String} {error : ParseError}

/-! ## The first lines of a text -/

/-- What counts of each line of a text. -/
def contents (text : String) : List (List Char) :=
  (Text.lines text.toList).map content

/-- The text of the first lines of a text. -/
def firstLines (count : Nat) (text : String) : String :=
  String.ofList (((Text.lines text.toList).take count).flatMap (· ++ ['\n']))

theorem lines_firstLines (count : Nat) (text : String) :
    Text.lines (firstLines count text).toList = (Text.lines text.toList).take count := by
  rw [firstLines, String.toList_ofList, lines_flatMap]
  exact fun line member => newline_not_mem_of_mem_lines (List.mem_of_mem_take member)

theorem contents_firstLines (count : Nat) (text : String) :
    contents (firstLines count text) = (contents text).take count := by
  rw [contents, lines_firstLines, List.map_take, contents]

/-! ## Lines of which the same counts -/

theorem parseLine_congr (same : content line = content other) :
    parseLine allowed line = parseLine allowed other := by
  rw [parseLine, parseLine, contentWords_eq, contentWords_eq, same]

theorem parseLines_congr (same : lines.map content = others.map content) :
    parseLines number allowed lines = parseLines number allowed others := by
  induction lines generalizing number allowed others with
  | nil => rw [List.map_eq_nil_iff.mp same.symm]
  | cons line lines ih =>
    obtain ⟨other, others, rfl, first, rest⟩ := List.map_eq_cons_iff.mp same.symm
    have here : parseLine allowed line = parseLine allowed other := parseLine_congr first.symm
    simp only [parseLines, here, ih rest.symm]

theorem parse_congr {other : String} (same : contents other = contents text) :
    parse other = parse text :=
  parseLines_congr same

/-! ## The first wrong line -/

theorem map_eq_error_iff {Error Value Result : Type} {first : Except Error Value}
    {step : Value → Result} {error : Error} :
    step <$> first = .error error ↔ first = .error error := by
  cases first <;> simp [Functor.map, Except.map]

/-- What is behind a wrong line is not looked at. -/
theorem parseLines_append_of_error (fails : parseLines number allowed fore = .error error)
    (aft : List (List Char)) : parseLines number allowed (fore ++ aft) = .error error := by
  induction fore generalizing number allowed with
  | nil => exact nomatch fails
  | cons line fore ih =>
    rw [List.cons_append, parseLines]
    rw [parseLines] at fails
    cases parsed : parseLine allowed line with
    | error problem => simpa only [parsed] using fails
    | ok found =>
      simp only [parsed] at fails ⊢
      cases found with
      | none => exact ih fails
      | some request => exact map_eq_error_iff.mpr (ih (map_eq_error_iff.mp fails))

/-- An error is about the first wrong line: the lines in front of it are read, and with it alone
behind them they are refused as all lines are. -/
theorem exists_wrong_line (fails : parseLines number allowed lines = .error error) :
    ∃ fore line aft, lines = fore ++ line :: aft ∧ error.line = number + fore.length
      ∧ (∃ trace, parseLines number allowed fore = .ok trace)
      ∧ parseLines number allowed (fore ++ [line]) = .error error := by
  induction lines generalizing number allowed with
  | nil => exact nomatch fails
  | cons line lines ih =>
    rw [parseLines] at fails
    cases parsed : parseLine allowed line with
    | error problem =>
      simp only [parsed, Except.error.injEq] at fails
      subst fails
      exact ⟨[], line, lines, rfl, rfl, ⟨[], rfl⟩, by simp [parseLines, parsed]⟩
    | ok found =>
      simp only [parsed] at fails
      -- The wrong line is one of the others, whether this one is a request or not.
      cases found with
      | none =>
        obtain ⟨fore, wrong, aft, rfl, counted, ⟨trace, before⟩, stops⟩ := ih fails
        refine ⟨line :: fore, wrong, aft, rfl, by simp [counted]; omega, ⟨trace, ?_⟩, ?_⟩
        · simpa only [parseLines, parsed] using before
        · simpa only [List.cons_append, parseLines, parsed] using stops
      | some request =>
        obtain ⟨fore, wrong, aft, rfl, counted, ⟨trace, before⟩, stops⟩ :=
          ih (map_eq_error_iff.mp fails)
        refine ⟨line :: fore, wrong, aft, rfl, by simp [counted]; omega, ⟨request :: trace, ?_⟩, ?_⟩
        · simp only [parseLines, parsed, before]
          rfl
        · simp only [List.cons_append, parseLines, parsed]
          exact map_eq_error_iff.mpr stops

/-- A text that is refused is refused for a line of its own. The lines before that one are read, by
themselves or with other line ends, and the lines up to that one are refused with the same error,
by themselves and in front of any other lines. -/
theorem parse_stops_at_first_wrong_line (text : String) (error : ParseError)
    (fails : parse text = .error error) :
    1 ≤ error.line ∧ error.line ≤ (Text.lines text.toList).length
      ∧ (∃ trace, parse (firstLines (error.line - 1) text) = .ok trace)
      ∧ (∀ before, contents before = (contents text).take (error.line - 1) →
        ∃ trace, parse before = .ok trace)
      ∧ parse (firstLines error.line text) = .error error
      ∧ ∀ other, (contents other).take error.line = (contents text).take error.line →
        parse other = .error error := by
  obtain ⟨fore, line, aft, cut, counted, ⟨trace, before⟩, stops⟩ := exists_wrong_line fails
  have earlier : (Text.lines text.toList).take (error.line - 1) = fore := by
    simp [cut, counted]
  have through : (Text.lines text.toList).take error.line = fore ++ [line] := by
    simp [cut, counted, Nat.add_comm 1, List.take_append, List.take_of_length_le]
  have reads : parse (firstLines (error.line - 1) text) = .ok trace := by
    rw [parse, lines_firstLines, earlier, before]
  have refuses : parse (firstLines error.line text) = .error error := by
    rw [parse, lines_firstLines, through, stops]
  refine ⟨by omega, by simp [cut, counted]; omega, ⟨trace, reads⟩, ?_, refuses, ?_⟩
  · intro before same
    have read : parse before = parse (firstLines (error.line - 1) text) :=
      parse_congr (same.trans (contents_firstLines _ text).symm)
    exact ⟨trace, read.trans reads⟩
  · intro other same
    -- The other text fails on its first lines, and so it fails.
    have alone : parse (firstLines error.line other) = .error error := by
      rw [← refuses]
      apply parse_congr
      rw [contents_firstLines, contents_firstLines, same]
    rw [parse, lines_firstLines] at alone
    rw [parse, ← List.take_append_drop error.line (Text.lines other.toList)]
    exact parseLines_append_of_error alone _

/-- Below a heading and a request with a comment there is a word too many on the third line. The
fourth line, which is wrong too, may be another one. -/
theorem parse_stops_at_third_line :
    parse "8\r\na 0 8 # top\nf 0 1\na" = .error ⟨3, .unexpectedToken ['1']⟩
      ∧ parse (firstLines 3 "8\r\na 0 8 # top\nf 0 1\na") = .error ⟨3, .unexpectedToken ['1']⟩
      ∧ parse "8\na 0 8\nf 0 1\nr 0" = .error ⟨3, .unexpectedToken ['1']⟩ := by
  have fails : parse "8\r\na 0 8 # top\nf 0 1\na" = .error ⟨3, .unexpectedToken ['1']⟩ := by cbv
  obtain ⟨-, -, -, -, refuses, others⟩ := parse_stops_at_first_wrong_line _ _ fails
  exact ⟨fails, refuses, others _ (by cbv)⟩

end BoundaryTag.Trace
