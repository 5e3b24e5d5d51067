import BoundaryTag.CommandLine.Session
import BoundaryTag.Proofs.Replays
import BoundaryTag.Proofs.Texts

/-!
# Sessions

What a session prints is put together from what its traces contribute, in the order in which they
are named. What a trace contributes depends on the options, on what there is to read at its path and
on the mapping that the system makes for it. Where the system answers alike each time, a trace
contributes what it would print by itself.
-/
namespace BoundaryTag.CommandLine

open Text

/-! ## What is to be printed -/

/-- A line of the table: cells with a blank between each two, filled up with blanks to the widths of
their columns. The last cell has its width already. -/
def tableRow (name operations peak arena : String) (share : List Char) : List Char :=
  name.toList.rightpad 32 ' ' ++ [' '] ++ operations.toList.leftpad 8 ' ' ++ [' ']
    ++ peak.toList.leftpad 10 ' ' ++ [' '] ++ arena.toList.leftpad 10 ' ' ++ [' ']
    ++ share ++ ['\n']

/-- A share of one in percent, as the nearest number of tenths. -/
def shareCell (share : Float) : List Char :=
  let tenths := roundQuotient (magnitude (share * 100) * 10) magnitudeUnit
  ((toString (tenths / 10)).toList ++ '.' :: (toString (tenths % 10)).toList).leftpad 6 ' ' ++ ['%']

def headingLine : List Char :=
  tableRow "trace" "ops" "peak" "arena" ("util".toList.leftpad 7 ' ')

/-- The line for the mean of some shares. -/
def averageLine (shares : List Float) : List Char :=
  tableRow "average" "" "" ""
    (shareCell (shares.foldl (· + ·) 0 / (UInt64.ofNat shares.length).toFloat))

/-- What a trace adds to what a session leaves behind. -/
structure Contribution where
  /-- All there is to log, earliest first. -/
  log : List Event
  /-- The heap after the replay, if it is to be shown. -/
  dump : String
  /-- The report, or the message that says why there is none. -/
  ending : Except String Report
deriving DecidableEq

namespace Contribution

def report? (part : Contribution) : Option Report :=
  match part.ending with
  | .ok report => some report
  | .error _ => none

/-- What it adds to the table: the heap, if it is to be shown, and the row, if there is one. -/
def table (path : String) (part : Contribution) : List Char :=
  part.dump.toList ++ match part.ending with
    | .ok report =>
      tableRow path (toString report.operations) (toString report.peakPayload)
        (toString report.arenaBytes) (shareCell report.utilization)
    | .error _ => []

/-- The line that says why there is no row. -/
def complaint? (path : String) (part : Contribution) : Option String :=
  match part.ending with
  | .ok _ => none
  | .error message => some (path ++ ": " ++ message)

end Contribution

def Notice.line? : Notice → Option String
  | .line text => some text
  | _ => none

/-- A session leaves behind what its traces, in this order, contribute. -/
structure Outcome.Assembled (logs : Event → Bool) (parts : List (String × Contribution))
    (outcome : Outcome) : Prop where
  /-- The average is there if and only if there is a row. -/
  output : outcome.output.toList = headingLine
    ++ parts.flatMap (fun (path, part) => part.table path)
    ++ (let reports := parts.filterMap fun (_, part) => part.report?
      if reports = [] then [] else averageLine (reports.map Report.utilization))
  /-- What is logged of a trace stands before the line for its failure. -/
  errors : outcome.errors = parts.flatMap fun (path, part) =>
    (part.log.filter logs).map Notice.logged ++ (part.complaint? path).toList.map Notice.line
  /-- There is one line of the program's own for each trace that fails. -/
  complaints : outcome.errors.filterMap Notice.line? =
    parts.filterMap fun (path, part) => part.complaint? path
  exitCode : outcome.exitCode = if ∀ part ∈ parts, part.2.report?.isSome then 0 else 1

/-! ## What comes of a trace -/

/-- An arena for a trace is of the kind that the options ask for. The log tells of a mapping. -/
inductive Provides (options : Options) (map : Mapper) : Arena → List Event → Prop
  | buffer (buffered : options.mapped = false) :
      Provides options map (Arena.buffer options.maxHeap) []
  | mapping {arena : Arena} {base : Nat} (mapped : options.mapped = true)
      (maps : Arena.mapping map options.maxHeap = .ok (.ok arena))
      (answers : map arena.capacity = .made base arena.store) :
      Provides options map arena [.mapped arena.capacity base]

/-- What comes of a trace, as far as it gets: it is loaded, it is given an arena, a heap is built
and the trace is replayed. -/
inductive Contributes (options : Options) (contents : Except FileError String) (map : Mapper) :
    Contribution → Prop
  | unreadable {source : LoadError} (fails : Trace.load contents = .error source) :
      Contributes options contents map ⟨[], "", .error source.message⟩
  | unmapped {trace : Trace} {source : ArenaError} (loads : Trace.load contents = .ok trace)
      (mapped : options.mapped = true)
      (fails : Arena.mapping map options.maxHeap = .ok (.error source)) :
      Contributes options contents map ⟨[], "", .error source.message⟩
  | unbuilt {trace : Trace} {arena : Arena} {made : List Event} {after : Heap} {source : AllocError}
      (loads : Trace.load contents = .ok trace) (provides : Provides options map arena made)
      (fails : Heap.build (.unbuilt arena options.config) = .ok (.error source) after) :
      Contributes options contents map ⟨made ++ after.journal.toList, "", .error source.message⟩
  | stopped {trace : Trace} {arena : Arena} {made : List Event} {heap after : Heap}
      {source : ReplayError}
      (loads : Trace.load contents = .ok trace) (provides : Provides options map arena made)
      (builds : Heap.build (.unbuilt arena options.config) = .ok (.ok ()) heap)
      (fails : trace.replay heap = .ok (.error source) after) :
      Contributes options contents map ⟨made ++ after.journal.toList, "", .error source.message⟩
  | replayed {trace : Trace} {arena : Arena} {made : List Event} {heap after : Heap}
      {report : Report} {text : String}
      (loads : Trace.load contents = .ok trace) (provides : Provides options map arena made)
      (builds : Heap.build (.unbuilt arena options.config) = .ok (.ok ()) heap)
      (replays : trace.replay heap = .ok (.ok report) after) (shows : after.dump = .ok text) :
      Contributes options contents map
        ⟨made ++ after.journal.toList, if options.dump then text else "", .ok report⟩

/-- A trace that loads meets a fault on the way to its heap or while it is replayed. -/
inductive MeetsFault (options : Options) (contents : Except FileError String) (map : Mapper) : Prop
  | mapping {trace : Trace} {fault : Fault} (loads : Trace.load contents = .ok trace)
      (mapped : options.mapped = true)
      (faults : Arena.mapping map options.maxHeap = .error fault)
  | building {trace : Trace} {arena : Arena} {made : List Event} {fault : Fault} {stopped : Heap}
      (loads : Trace.load contents = .ok trace) (provides : Provides options map arena made)
      (faults : Heap.build (.unbuilt arena options.config) = .error fault stopped)
  | replaying {trace : Trace} {arena : Arena} {made : List Event} {heap stopped : Heap}
      {fault : Fault}
      (loads : Trace.load contents = .ok trace) (provides : Provides options map arena made)
      (builds : Heap.build (.unbuilt arena options.config) = .ok (.ok ()) heap)
      (faults : trace.replay heap = .error fault stopped)

/-- Each time there is the same to read at a path, and a mapping is made with the same bytes, or
none for the same reason. Mappings may begin at other addresses. -/
structure System.Steady (system : System) : Prop where
  reads : ∀ first second path, system.read first path = system.read second path
  maps : ∀ first second capacity,
    Arena.mapping (system.map first) capacity = Arena.mapping (system.map second) capacity

variable {options : Options} {system : System} {contents : Except FileError String} {map : Mapper}
  {arena : Arena} {made : List Event} {trace : Trace} {path : String} {part : Contribution}
  {logs : Event → Bool}

/-! ## One trace -/

/-- The report or the message, if there was no fault. -/
def Ending.told? : Ending → Option (Except String Report)
  | .replayed report => some (.ok report)
  | .failed failure => some (.error failure.message)
  | .faulted _ => none

/-- What a result contributes, if there was no fault. -/
def TraceResult.contribution? (result : TraceResult) : Option Contribution :=
  result.ending.told?.map fun ending => ⟨result.log, result.dump, ending⟩

theorem runTrace_of_provides (loads : Trace.load contents = .ok trace)
    (provides : Provides options map arena made) : runTrace options contents map =
      { runOn arena options trace with log := made ++ (runOn arena options trace).log } := by
  unfold runTrace
  cases provides with
  | buffer buffered =>
    simp only [loads, buffered]
    rfl
  | mapping mapped maps answers => simp only [loads, mapped, if_true, maps, mappingLog, answers]

/-- The program does what the relation says of a trace. -/
theorem Contributes.result (contributes : Contributes options contents map part) :
    (runTrace options contents map).contribution? = some part := by
  cases contributes with
  | unreadable fails =>
    simp only [runTrace, fails]
    rfl
  | unmapped loads mapped fails =>
    simp only [runTrace, loads, mapped, if_true, fails]
    rfl
  | unbuilt loads provides fails =>
    rw [runTrace_of_provides loads provides]
    simp only [runOn, fails]
    rfl
  | stopped loads provides builds fails =>
    rw [runTrace_of_provides loads provides]
    simp only [runOn, builds, fails]
    rfl
  | replayed loads provides builds replays shows =>
    obtain ⟨text, also, run⟩ := runOn_of_replayed builds replays
    cases also.symm.trans shows
    rw [runTrace_of_provides loads provides, run]
    rfl

theorem Contributes.unique {other : Contribution}
    (contributes : Contributes options contents map part)
    (also : Contributes options contents map other) : other = part :=
  Option.some.inj (also.result.symm.trans contributes.result)

theorem exists_replayed (loads : Trace.load contents = .ok trace)
    (provides : Provides options map arena made) (calm : ¬MeetsFault options contents map) :
    ∃ part, Contributes options contents map part := by
  cases builds : Heap.build (.unbuilt arena options.config) with
  | error fault stopped => exact absurd (.building loads provides builds) calm
  | ok made heap =>
    cases made with
    | error source => exact ⟨_, .unbuilt loads provides builds⟩
    | ok =>
      cases replays : trace.replay heap with
      | error fault stopped => exact absurd (.replaying loads provides builds replays) calm
      | ok result after =>
        cases result with
        | error source => exact ⟨_, .stopped loads provides builds replays⟩
        | ok report =>
          -- The heap that is left is sound, so it can be shown and passes the last check.
          obtain ⟨text, shows, -⟩ := runOn_of_replayed builds replays
          exact ⟨_, .replayed loads provides builds replays shows⟩

/-- A trace that meets no fault contributes something. -/
theorem exists_contribution (calm : ¬MeetsFault options contents map) :
    ∃ part, Contributes options contents map part := by
  cases loads : Trace.load contents with
  | error source => exact ⟨_, .unreadable loads⟩
  | ok trace =>
    cases mapped : options.mapped with
    | false => exact exists_replayed loads (.buffer mapped) calm
    | true =>
      cases maps : Arena.mapping map options.maxHeap with
      | error fault => exact absurd (.mapping loads mapped maps) calm
      | ok made =>
        cases made with
        | error source => exact ⟨_, .unmapped loads mapped maps⟩
        | ok arena =>
          obtain ⟨-, -, base, answers⟩ := Arena.mapping_spec maps
          exact exists_replayed loads (.mapping mapped maps answers) calm

theorem MeetsFault.result (meets : MeetsFault options contents map) :
    (runTrace options contents map).contribution? = none := by
  cases meets with
  | mapping loads mapped faults =>
    simp only [runTrace, loads, mapped, if_true, faults]
    rfl
  | building loads provides faults =>
    rw [runTrace_of_provides loads provides]
    simp only [runOn, faults]
    rfl
  | replaying loads provides builds faults =>
    rw [runTrace_of_provides loads provides]
    simp only [runOn, builds, faults]
    rfl

/-- A trace contributes something if and only if it meets no fault. -/
theorem exists_contribution_iff :
    (∃ part, Contributes options contents map part) ↔ ¬MeetsFault options contents map := by
  refine ⟨?_, exists_contribution⟩
  rintro ⟨part, contributes⟩ meets
  cases contributes.result.symm.trans meets.result

theorem contributes_iff : Contributes options contents map part ↔
    (runTrace options contents map).contribution? = some part := by
  refine ⟨Contributes.result, fun gives => ?_⟩
  have calm : ¬MeetsFault options contents map := fun meets => by
    cases gives.symm.trans meets.result
  obtain ⟨other, contributes⟩ := exists_contribution calm
  obtain rfl : other = part := Option.some.inj (contributes.result.symm.trans gives)
  exact contributes

/-- Where a mapping begins makes no difference outside the log. -/
theorem runTrace_alike (options : Options) (contents : Except FileError String) {other : Mapper}
    (maps : ∀ capacity, Arena.mapping map capacity = Arena.mapping other capacity) :
    (runTrace options contents map).dump = (runTrace options contents other).dump
      ∧ (runTrace options contents map).ending = (runTrace options contents other).ending := by
  unfold runTrace
  rw [maps]
  split
  · exact ⟨rfl, rfl⟩
  split
  · split <;> exact ⟨rfl, rfl⟩
  · exact ⟨rfl, rfl⟩

/-- So a trace contributes the same, but for the log, to whichever mapping it comes. -/
theorem Contributes.alike {other : Mapper} {later : Contribution}
    (maps : ∀ capacity, Arena.mapping map capacity = Arena.mapping other capacity)
    (contributes : Contributes options contents map part)
    (also : Contributes options contents other later) :
    part.dump = later.dump ∧ part.ending = later.ending := by
  obtain ⟨dump, ending⟩ := runTrace_alike options contents maps
  obtain ⟨first, told, rfl⟩ := Option.map_eq_some_iff.mp contributes.result
  obtain ⟨second, again, rfl⟩ := Option.map_eq_some_iff.mp also.result
  rw [← ending] at again
  exact ⟨dump, Option.some.inj (told.symm.trans again)⟩

/-! ## The table -/

theorem toList_tableLine (name operations peak arena share : String) :
    (tableLine name operations peak arena share).toList =
      tableRow name operations peak arena share.toList := by
  have same (text : String) : toString text = text := rfl
  simp [tableLine, tableRow, same, toList_alignLeft, toList_alignRight]

theorem toList_heading : heading.toList = headingLine := by
  rw [heading, toList_tableLine, toList_alignRight]
  rfl

/-- The remainder of a division by ten has one digit, so there are no zeros to fill up with. -/
theorem toList_decimal (value : Float) : (decimal 1 value).toList =
    (toString (roundQuotient (magnitude value * 10) magnitudeUnit / 10)).toList
      ++ '.' :: (toString (roundQuotient (magnitude value * 10) magnitudeUnit % 10)).toList := by
  have filled (number : Nat) : "".pushn '0' (1 - number.repr.length) = "" := by
    have digits : 0 < number.repr.toList.length := List.length_pos_iff.mpr (solid_toString number).1
    rw [String.length_toList] at digits
    rw [Nat.sub_eq_zero_of_le digits]
    rfl
  have same (text : String) : toString text = text := rfl
  simp [decimal, same, filled]

theorem toList_percentage (share : Float) : (percentage share).toList = shareCell share := by
  rw [percentage, String.toList_append, toList_alignRight, toList_decimal]
  rfl

theorem toList_averageRow (reports : List Report) : (averageRow reports).toList =
    if reports = [] then [] else averageLine (reports.map Report.utilization) := by
  cases reports with
  | nil => rfl
  | cons report rest =>
    rw [averageRow, averageLine, List.foldl_map, List.length_map]
    simp only [List.isEmpty_cons, Bool.false_eq_true, if_false, reduceCtorEq]
    rw [toList_tableLine, toList_percentage]

/-- A result that contributes something is printed as that. -/
theorem TraceResult.prints (logs : Event → Bool) (path : String) {result : TraceResult}
    (contributes : result.contribution? = some part) :
    (result.output path).toList = part.table path
      ∧ result.errors logs path = (part.log.filter logs).map .logged
        ++ (part.complaint? path).toList.map .line
      ∧ result.ending.report? = part.report? ∧ result.ending.fault? = none := by
  obtain ⟨log, dump, ending⟩ := result
  cases ending with
  | faulted fault => cases contributes
  | failed failure =>
    cases contributes
    exact ⟨(List.append_nil _).symm, rfl, rfl, rfl⟩
  | replayed report =>
    cases contributes
    refine ⟨?_, rfl, rfl, rfl⟩
    simp [output, Contribution.table, row, toList_tableLine, toList_percentage]

/-! ## All traces -/

/-- What comes of the trace at a path when it is its turn. -/
def resultAt (options : Options) (system : System) (turn : Nat) (path : String) : TraceResult :=
  runTrace options (system.read turn path) (system.map turn)

/-- Which traces are named makes no difference to what comes of each. -/
theorem resultAt_traces (traces : List String) :
    resultAt { options with traces } system = resultAt options system := by
  have same : { options with traces : Options }.config = options.config := rfl
  funext turn path
  simp only [resultAt, runTrace, runOn, same]

/-- Without a fault, every trace has its turn. -/
theorem runTraces_of_calm {paths : List String} (start : Nat)
    (calm : ∀ entry ∈ paths.zipIdx start,
      (resultAt options system entry.2 entry.1).ending.fault? = none) :
    runTraces options system start paths =
      (paths.zipIdx start).map fun entry => (entry.1, resultAt options system entry.2 entry.1) := by
  -- The turn moves on with the paths, so the induction is for all of its beginnings.
  induction paths generalizing start with
  | nil => rfl
  | cons path rest ih =>
    rw [List.zipIdx_cons, List.forall_mem_cons] at calm
    obtain ⟨first, later⟩ := calm
    rw [runTraces, List.zipIdx_cons, List.map_cons, ← ih (start + 1) later]
    simp only
    split
    next fault ended =>
      rw [resultAt, ended] at first
      cases first
    · rfl

/-- A session without a fault prints what comes of its traces in turn. -/
theorem runSession_of_calm (calm : ∀ entry ∈ options.traces.zipIdx,
    (resultAt options system entry.2 entry.1).ending.fault? = none) :
    let turns := options.traces.zipIdx
    let result (entry : String × Nat) := resultAt options system entry.2 entry.1
    runSession options system = {
      exitCode := if ∀ entry ∈ turns, (result entry).ending.report?.isSome then 0 else 1
      output := heading ++ String.join (turns.map fun entry => (result entry).output entry.1)
        ++ averageRow (turns.filterMap fun entry => (result entry).ending.report?)
      errors := turns.flatMap fun entry =>
        (result entry).errors (system.logs options) entry.1 } := by
  have quiet : ¬∃ entry ∈ options.traces.zipIdx,
      (resultAt options system entry.2 entry.1).ending.fault?.isSome := by
    rintro ⟨entry, member, faulted⟩
    rw [calm entry member] at faulted
    cases faulted
  unfold runSession
  rw [runTraces_of_calm 0 calm]
  simp only [List.map_map, List.flatMap_map, List.filterMap_map, List.any_map, List.all_map,
    List.any_eq_true, List.all_eq_true, Function.comp_def, quiet, if_false]

/-- The lines of the program's own among what goes to the stream for errors. -/
theorem line?_errors (logs : Event → Bool) (path : String) (part : Contribution) :
    ((part.log.filter logs).map Notice.logged
      ++ (part.complaint? path).toList.map Notice.line).filterMap Notice.line? =
        (part.complaint? path).toList := by
  simp [List.filterMap_append, List.filterMap_map, Function.comp_def, Notice.line?]

/-- A session whose traces all contribute something is put together from what they contribute. -/
theorem runSession_assembled (options : Options) {printed : Nat → String → Contribution}
    (contributes : ∀ turn, ∀ path ∈ options.traces,
      (resultAt options system turn path).contribution? = some (printed turn path)) :
    (runSession options system).Assembled (system.logs options)
      (options.traces.zipIdx.map fun (path, turn) => (path, printed turn path)) := by
  have prints (entry : String × Nat) (member : entry ∈ options.traces.zipIdx) :=
    TraceResult.prints (system.logs options) entry.1
      (contributes entry.2 entry.1 (List.fst_mem_of_mem_zipIdx member))
  have tables := List.flatMap_congr fun entry member => (prints entry member).1
  have errors := List.flatMap_congr fun entry member => (prints entry member).2.1
  have reports := List.filterMap_congr fun entry member => (prints entry member).2.2.1
  have complete : (∀ entry ∈ options.traces.zipIdx,
      (resultAt options system entry.2 entry.1).ending.report?.isSome) ↔
        ∀ entry ∈ options.traces.zipIdx, (printed entry.2 entry.1).report?.isSome :=
    forall₂_congr fun entry member => by rw [(prints entry member).2.2.1]
  rw [runSession_of_calm fun entry member => (prints entry member).2.2.2]
  constructor
  · rw [String.toList_append, String.toList_append, toList_heading, String.toList_join,
      toList_averageRow, List.flatMap_map, List.flatMap_map, List.filterMap_map]
    simp only [tables, reports, Function.comp_def]
  · rw [List.flatMap_map]
    exact errors
  · rw [List.filterMap_map]
    simp only [errors, List.filterMap_flatMap, line?_errors]
    exact (List.filterMap_eq_flatMap_toList _ _).symm
  · simp only [List.forall_mem_map, complete]

/-- A text without requests gets a row where a heap can be built in a buffer. -/
theorem exists_row_of_empty {heap : Heap} (buffered : options.mapped = false)
    (quiet : options.dump = false)
    (builds : Heap.build (.unbuilt (.buffer options.maxHeap) options.config) = .ok (.ok ()) heap) :
    ∃ log report, ∀ map, Contributes options (.ok "") map ⟨log, "", .ok report⟩ := by
  have loads : Trace.load (.ok "") = .ok [] := by cbv
  obtain ⟨report, after, replays⟩ : ∃ report after,
      Trace.replay [] heap = .ok (.ok report) after := ⟨_, _, rfl⟩
  obtain ⟨text, shows, -⟩ := runOn_of_replayed builds replays
  refine ⟨[] ++ after.journal.toList, report, fun map => ?_⟩
  have contributes : Contributes options (.ok "") map _ :=
    .replayed loads (.buffer buffered) builds replays shows
  rw [quiet] at contributes
  exact contributes

/-- There is no file at one path, a trace with a large request at another, and one without requests
at all others. -/
def threePaths : System where
  read _ path :=
    if path = "missing" then .error .missing
    else .ok (if path = "large" then "a 0 1000\n" else "")
  map _ := .below 0x800000000000 4096 "Cannot allocate memory (os error 12)"
  filter? := none

def threeTraces : Options where
  traces := ["missing", "large", "empty"]
  chunkSize := 96
  maxHeap := 256

/-- A large request does not fit into a small arena. The log tells of it. -/
theorem large_contributes (turn : Nat) :
    Contributes threeTraces (threePaths.read turn "large") (threePaths.map turn)
      ⟨[.extended 96 112, .initialised 96 256, .exhausted 1008 (.exhausted 1008 144)], "",
        .error "operation 0: out of memory while allocating 1008 bytes"⟩ := by
  have parses : Trace.parse "a 0 1000\n" = .ok [.allocate 0 1000] := by decide +kernel
  have loads : Trace.load (threePaths.read turn "large") = .ok [.allocate 0 1000] := by
    simp only [threePaths, reduceIte, String.reduceEq, Trace.load, parses]
  rw [contributes_iff, runTrace_of_provides loads (.buffer rfl)]
  decide +kernel

end BoundaryTag.CommandLine
