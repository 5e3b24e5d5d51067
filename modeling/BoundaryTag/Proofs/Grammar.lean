import BoundaryTag.Proofs.Texts
import BoundaryTag.Trace.Parser

/-!
# The grammar of traces

Which texts are traces is said here line by line, without the parser. A line counts up to its first
number sign and without the blanks at its ends. It is empty, or it is a request or, before the first
request, it is a heading. The parser reads the requests of such a text in line order.

It accepts more than that. A request ends with its operands, and a word behind them is refused, but
the parser leaves a heading as soon as it has read the number and never sees what is behind it.
-/
namespace BoundaryTag.Trace

open Text

variable {line : List Char} {rest : List (List Char)} {heading : List Char → Prop}
  {request : Request} {trace : Trace}

/-! ## Lines -/

/-- What counts of a line. -/
def content (line : List Char) : List Char :=
  trim (line.takeWhile (· != '#'))

/-- The request that words write if they write one and nothing else. -/
def written? (words : List (List Char)) : Option Request :=
  match words with
  | [['a'], id, size] => return .allocate (← word? id) (← word? size)
  | [['r'], id, size] => return .resize (← word? id) (← word? size)
  | [['f'], id] => return .release (← word? id)
  | _ => none

/-- The request that a line is. -/
def requestOn? (line : List Char) : Option Request :=
  written? (words (content line))

/-- Whether a line is a real number and nothing else. -/
def IsHeading (line : List Char) : Prop :=
  ∃ number, words (content line) = [number] ∧ isReal number = true

/-- Whether the first word of a line is a real number. -/
def StartsHeading (line : List Char) : Prop :=
  ∃ number behind, words (content line) = number :: behind ∧ isReal number = true

theorem IsHeading.starts (is : IsHeading line) : StartsHeading line :=
  let ⟨number, only, real⟩ := is
  ⟨number, [], only, real⟩

theorem contentWords_eq (line : List Char) : contentWords line = words (content line) :=
  (words_trim _).symm

theorem content_eq_nil_iff (line : List Char) : content line = [] ↔ words (content line) = [] := by
  rw [content, trim_eq_nil_iff, words_trim]

/-- The words of a request. -/
theorem exists_of_written {words : List (List Char)} (written : written? words = some request) :
    (∃ first second id size, word? first = some id ∧ word? second = some size
      ∧ (words = [['a'], first, second] ∧ request = .allocate id size
        ∨ words = [['r'], first, second] ∧ request = .resize id size))
      ∨ ∃ first id, word? first = some id ∧ words = [['f'], first] ∧ request = .release id := by
  unfold written? at written
  split at written
  case h_1 first second | h_2 first second =>
    obtain ⟨id, readId, written⟩ := Option.bind_eq_some_iff.mp written
    obtain ⟨size, readSize, written⟩ := Option.bind_eq_some_iff.mp written
    cases written
    exact .inl ⟨first, second, id, size, readId, readSize, by simp⟩
  case h_3 first =>
    obtain ⟨id, readId, written⟩ := Option.bind_eq_some_iff.mp written
    cases written
    exact .inr ⟨first, id, readId, rfl, rfl⟩
  case h_4 => exact nomatch written

/-- No request starts with a real number. -/
theorem not_isReal_of_written {kind : List Char} {operands : List (List Char)}
    (written : written? (kind :: operands) = some request) : isReal kind = false := by
  rcases exists_of_written written
    with ⟨_, _, _, _, _, _, ⟨same, -⟩ | ⟨same, -⟩⟩ | ⟨_, _, _, same, -⟩
  all_goals
    cases same
    decide

theorem StartsHeading.requestless (starts : StartsHeading line) : requestOn? line = none := by
  obtain ⟨number, behind, cut, real⟩ := starts
  rw [requestOn?, cut]
  cases written : written? (number :: behind) with
  | none => rfl
  | some request => exact absurd real (by simp [not_isReal_of_written written])

/-! ## Texts -/

/-- Whether each line is empty, or a request or, before the first request, a heading. -/
def Grammatical (heading : List Char → Prop) (lines : List (List Char)) : Prop :=
  ∀ fore line aft, lines = fore ++ line :: aft →
    content line = [] ∨ (∃ request, requestOn? line = some request)
      ∨ (∀ earlier ∈ fore, requestOn? earlier = none) ∧ heading line

/-- Whether no line before the first request goes on after a number that it starts with. -/
def HeadingsEnd (lines : List (List Char)) : Prop :=
  ∀ fore line aft, lines = fore ++ line :: aft → (∀ earlier ∈ fore, requestOn? earlier = none) →
    StartsHeading line → IsHeading line

theorem grammatical_nil : Grammatical heading [] := by
  intro fore line aft same
  simp at same

/-- No heading comes after a line that is a request. -/
theorem grammatical_cons : Grammatical heading (line :: rest) ↔
    (content line = [] ∨ (∃ request, requestOn? line = some request) ∨ heading line)
      ∧ Grammatical (fun other => requestOn? line = none ∧ heading other) rest := by
  constructor
  · intro grammatical
    refine ⟨by simpa using grammatical [] line rest rfl, fun fore other aft same => ?_⟩
    rcases grammatical (line :: fore) other aft (by rw [same, List.cons_append])
      with empty | requests | ⟨before, heads⟩
    · exact .inl empty
    · exact .inr (.inl requests)
    · obtain ⟨here, earlier⟩ := List.forall_mem_cons.mp before
      exact .inr (.inr ⟨earlier, here, heads⟩)
  · rintro ⟨first, others⟩ fore other aft same
    cases fore with
    | nil =>
      obtain ⟨rfl, rfl⟩ := List.cons.inj same
      simpa using first
    | cons first fore =>
      obtain ⟨rfl, rfl⟩ := List.cons.inj same
      rcases others fore other aft rfl with empty | requests | ⟨earlier, here, heads⟩
      · exact .inl empty
      · exact .inr (.inl requests)
      · exact .inr (.inr ⟨List.forall_mem_cons.mpr ⟨here, earlier⟩, heads⟩)

theorem Grammatical.mono {lines : List (List Char)} {weaker : List Char → Prop}
    (grammatical : Grammatical heading lines)
    (implies : ∀ fore line aft, lines = fore ++ line :: aft →
      (∀ earlier ∈ fore, requestOn? earlier = none) → heading line → weaker line) :
    Grammatical weaker lines := by
  intro fore line aft same
  rcases grammatical fore line aft same with empty | requests | ⟨before, heads⟩
  · exact .inl empty
  · exact .inr (.inl requests)
  · exact .inr (.inr ⟨before, implies fore line aft same before heads⟩)

/-- All headings are numbers and nothing else if they start with a number and end with it. -/
theorem grammatical_isHeading_iff {lines : List (List Char)} :
    Grammatical IsHeading lines ↔ Grammatical StartsHeading lines ∧ HeadingsEnd lines := by
  constructor
  · intro grammatical
    refine ⟨grammatical.mono fun _ _ _ _ _ heads => heads.starts, ?_⟩
    intro fore line aft same before starts
    -- Neither an empty line nor a request starts with a number.
    rcases grammatical fore line aft same with empty | ⟨request, requests⟩ | ⟨-, heads⟩
    · obtain ⟨number, behind, cut, -⟩ := starts
      rw [(content_eq_nil_iff line).mp empty] at cut
      exact nomatch cut
    · exact nomatch starts.requestless.symm.trans requests
    · exact heads
  · rintro ⟨grammatical, ends⟩
    exact grammatical.mono ends

/-! ## The parser -/

theorem bind_eq_ok_iff {Error Value Result : Type} {first : Except Error Value}
    {next : Value → Except Error Result} {result : Result} :
    first >>= next = .ok result ↔ ∃ value, first = .ok value ∧ next value = .ok result := by
  cases first <;> simp [bind, Except.bind]

theorem map_eq_ok_iff {Error Value Result : Type} {first : Except Error Value}
    {step : Value → Result} {result : Result} :
    step <$> first = .ok result ↔ ∃ value, first = .ok value ∧ result = step value := by
  cases first <;> simp [Functor.map, Except.map, eq_comm]

theorem takeNumber_eq_ok_iff {operand : Operand} {tokens : List (List Char)}
    {taken : Nat × List (List Char)} : takeNumber operand tokens = .ok taken
      ↔ ∃ token, tokens = token :: taken.2 ∧ word? token = some taken.1 := by
  cases tokens with
  | nil => simp [takeNumber]
  | cons token tokens =>
    cases read : word? token <;> simp [takeNumber, read, Prod.ext_iff, and_comm, eq_comm]

/-- Two operands are read off the front of the words. -/
theorem takeBoth_eq_ok_iff {make : Nat → Nat → Request} {tokens behind : List (List Char)} :
    (do
      let (id, tokens) ← takeNumber .id tokens
      let (size, tokens) ← takeNumber .size tokens
      return (make id size, tokens) : Except LineError (Request × List (List Char)))
        = .ok (request, behind)
      ↔ ∃ first second id size, tokens = first :: second :: behind ∧ word? first = some id
        ∧ word? second = some size ∧ request = make id size := by
  simp only [bind_eq_ok_iff, takeNumber_eq_ok_iff]
  constructor
  · rintro ⟨⟨id, _⟩, ⟨first, rfl, readId⟩, ⟨size, _⟩, ⟨second, rfl, readSize⟩, same⟩
    cases same
    exact ⟨first, second, id, size, rfl, readId, readSize, rfl⟩
  · rintro ⟨first, second, id, size, rfl, readId, readSize, rfl⟩
    exact ⟨(id, second :: behind), ⟨first, rfl, readId⟩, (size, behind), ⟨second, rfl, readSize⟩,
      rfl⟩

/-- What is read as a request is written by the words in front of those that are left. -/
theorem written_of_takeRequest {kind : List Char} {tokens behind : List (List Char)}
    (took : takeRequest kind tokens = .ok (request, behind)) :
    ∃ operands, tokens = operands ++ behind ∧ written? (kind :: operands) = some request := by
  -- A case for each kind of request, and one for the words that are none.
  unfold takeRequest at took
  split at took
  · obtain ⟨first, second, id, size, rfl, readId, readSize, rfl⟩ := takeBoth_eq_ok_iff.mp took
    exact ⟨[first, second], rfl, by simp [written?, readId, readSize]⟩
  · obtain ⟨first, second, id, size, rfl, readId, readSize, rfl⟩ := takeBoth_eq_ok_iff.mp took
    exact ⟨[first, second], rfl, by simp [written?, readId, readSize]⟩
  · obtain ⟨⟨id, _⟩, reads, same⟩ := bind_eq_ok_iff.mp took
    obtain ⟨first, rfl, readId⟩ := takeNumber_eq_ok_iff.mp reads
    cases same
    exact ⟨[first], rfl, by simp [written?, readId]⟩
  · exact nomatch took

/-- A request is read off the words that write it, whatever is behind them. -/
theorem takeRequest_of_written {kind : List Char} {operands : List (List Char)}
    (written : written? (kind :: operands) = some request) (behind : List (List Char)) :
    takeRequest kind (operands ++ behind) = .ok (request, behind) := by
  rcases exists_of_written written
    with ⟨first, second, id, size, readId, readSize, ⟨same, rfl⟩ | ⟨same, rfl⟩⟩
      | ⟨first, id, readId, same, rfl⟩
  · cases same
    exact takeBoth_eq_ok_iff.mpr ⟨first, second, id, size, rfl, readId, readSize, rfl⟩
  · cases same
    exact takeBoth_eq_ok_iff.mpr ⟨first, second, id, size, rfl, readId, readSize, rfl⟩
  · cases same
    exact bind_eq_ok_iff.mpr ⟨(id, behind), takeNumber_eq_ok_iff.mpr ⟨first, rfl, readId⟩, rfl⟩

/-- A line that is not passed over must be a request without anything behind it. -/
theorem parseLine_of_unskipped {allowed : Bool} {kind : List Char} {tokens : List (List Char)}
    {found : Option Request} (cut : contentWords line = kind :: tokens)
    (unskipped : ¬(allowed && isReal kind) = true) : parseLine allowed line = .ok found
      ↔ ∃ request, found = some request ∧ written? (kind :: tokens) = some request := by
  simp only [parseLine, cut, if_neg unskipped, bind_eq_ok_iff]
  constructor
  · rintro ⟨⟨request, behind⟩, took, answers⟩
    obtain ⟨operands, rfl, written⟩ := written_of_takeRequest took
    cases behind with
    | nil =>
      -- All words behind the first one are operands.
      cases answers
      exact ⟨request, rfl, by rwa [List.append_nil]⟩
    | cons token behind => exact nomatch answers
  · rintro ⟨request, rfl, written⟩
    have took := takeRequest_of_written written []
    rw [List.append_nil] at took
    exact ⟨(request, []), took, rfl⟩

/-- A line is passed over if it is empty or, where headings are allowed, starts like one. -/
theorem parseLine_eq_none_iff (allowed : Bool) (line : List Char) :
    parseLine allowed line = .ok none
      ↔ content line = [] ∨ allowed = true ∧ StartsHeading line := by
  rw [content_eq_nil_iff, StartsHeading, ← contentWords_eq]
  cases cut : contentWords line with
  | nil => simp [parseLine, cut]
  | cons kind tokens =>
    by_cases skipped : (allowed && isReal kind) = true
    · have both := Bool.and_eq_true_iff.mp skipped
      simp [parseLine, cut, both]
    · rw [parseLine_of_unskipped cut skipped]
      simpa using skipped

/-- A line is read as a request exactly if it is one. -/
theorem parseLine_eq_some_iff (allowed : Bool) (line : List Char) (request : Request) :
    parseLine allowed line = .ok (some request) ↔ requestOn? line = some request := by
  rw [requestOn?, ← contentWords_eq]
  cases cut : contentWords line with
  | nil => simp [parseLine, cut, written?]
  | cons kind tokens =>
    by_cases skipped : (allowed && isReal kind) = true
    · have both := Bool.and_eq_true_iff.mp skipped
      have unwritten : written? (kind :: tokens) ≠ some request :=
        fun written => by simp [not_isReal_of_written written] at both
      simp [parseLine, cut, both, unwritten]
    · rw [parseLine_of_unskipped cut skipped]
      simp

/-- The lines that the parser accepts and the trace it makes of them. -/
theorem parseLines_eq_ok_iff {number : Nat} {allowed : Bool} {lines : List (List Char)} :
    parseLines number allowed lines = .ok trace
      ↔ Grammatical (fun line => allowed = true ∧ StartsHeading line) lines
        ∧ trace = lines.filterMap requestOn? := by
  induction lines generalizing number allowed trace with
  | nil => simp [parseLines, grammatical_nil, eq_comm]
  | cons line rest ih =>
    rw [grammatical_cons, parseLines]
    have passed := parseLine_eq_none_iff allowed line
    have requests := parseLine_eq_some_iff allowed line
    cases parsed : parseLine allowed line with
    | error problem =>
      -- The line is neither passed over nor a request, so the grammar has no place for it.
      simp only [parsed, reduceCtorEq, false_iff, not_or] at passed requests
      simp [passed.1, passed.2, requests]
    | ok found =>
      cases found with
      | none =>
        -- The trace is that of the other lines, and they may be headings if this one may.
        simp only [parsed, reduceCtorEq, false_iff, true_iff, Except.ok.injEq] at passed requests
        have requestless := Option.eq_none_iff_forall_ne_some.mpr requests
        simp [requestless, passed, ih]
      | some request =>
        have requests := (requests request).mp parsed
        -- The parser allows no heading any more, and neither does the grammar.
        simp [requests, map_eq_ok_iff, ih]

/-- A text is parsed as the requests on its lines if every line is empty or a request or, before the
first request, starts with a real number. As long as no line goes on after such a number, these are
the texts whose lines are empty or requests or, before the first request, a real number. -/
theorem parse_accepts (text : String) (trace : Trace) :
    (parse text = .ok trace ↔ Grammatical StartsHeading (lines text.toList)
      ∧ trace = (lines text.toList).filterMap requestOn?)
    ∧ (HeadingsEnd (lines text.toList) →
      (parse text = .ok trace ↔ Grammatical IsHeading (lines text.toList)
        ∧ trace = (lines text.toList).filterMap requestOn?)) := by
  have accepts : parse text = .ok trace ↔ Grammatical StartsHeading (lines text.toList)
      ∧ trace = (lines text.toList).filterMap requestOn? := by
    simp only [parse, parseLines_eq_ok_iff, true_and]
  exact ⟨accepts, fun ends => by rw [accepts, grammatical_isHeading_iff, and_iff_left ends]⟩

/-- The parser reads a heading and the request on the line below it. -/
theorem parse_accepts_below_heading : HeadingsEnd (lines "8\na 0 24\n".toList)
    ∧ parse "8\na 0 24\n" = .ok [.allocate 0 24]
    ∧ Grammatical IsHeading (lines "8\na 0 24\n".toList) := by
  have cut : lines "8\na 0 24\n".toList = ["8".toList, "a 0 24".toList] :=
    lines_flatMap ["8".toList, "a 0 24".toList] (by decide)
  have first : contentWords "8".toList = [['8']] := by
    simp [contentWords, words, isBlank, CodeRanges.contains, blankRanges]
  have second : contentWords "a 0 24".toList = [['a'], ['0'], ['2', '4']] := by
    simp [contentWords, words, isBlank, CodeRanges.contains, blankRanges]
  have real : isReal ['8'] = true := by decide
  have unreal : isReal ['a'] = false := by decide
  have parsed : parse "8\na 0 24\n" = .ok [.allocate 0 24] := by
    simp only [parse, cut, parseLines, parseLine, first, second, real, unreal]
    rfl
  have ends : HeadingsEnd (lines "8\na 0 24\n".toList) := by
    rw [cut]
    rintro fore line aft same - ⟨number, behind, starts, heads⟩
    rcases fore with - | ⟨top, - | ⟨middle, fore⟩⟩
    · obtain ⟨rfl, -⟩ := List.cons.inj same
      exact ⟨['8'], (contentWords_eq _).symm.trans first, real⟩
    · obtain ⟨-, same⟩ := List.cons.inj same
      obtain ⟨rfl, -⟩ := List.cons.inj same
      rw [← contentWords_eq, second] at starts
      obtain ⟨rfl, -⟩ := List.cons.inj starts
      exact absurd heads (by simp [unreal])
    · simp at same
  exact ⟨ends, parsed, ((parse_accepts _ _).2 ends |>.mp parsed).1⟩

/-- A request behind a heading, on the same line, is not read and not refused either. -/
theorem parse_skips_behind_heading : parse "1 a 0 8\n" = .ok []
    ∧ ¬Grammatical IsHeading (lines "1 a 0 8\n".toList) := by
  have cut : lines "1 a 0 8\n".toList = ["1 a 0 8".toList] :=
    lines_flatMap ["1 a 0 8".toList] (by decide)
  have four : contentWords "1 a 0 8".toList = [['1'], ['a'], ['0'], ['8']] := by
    simp [contentWords, words, isBlank, CodeRanges.contains, blankRanges]
  have real : isReal ['1'] = true := by decide
  constructor
  · simp only [parse, cut, parseLines, parseLine, four, real]
    rfl
  · intro grammatical
    rw [contentWords_eq] at four
    obtain ⟨number, one, -⟩ := (grammatical_isHeading_iff.mp grammatical).2 [] _ _ cut
      (List.forall_mem_nil _) ⟨_, _, four, real⟩
    rw [four] at one
    simp at one

end BoundaryTag.Trace
