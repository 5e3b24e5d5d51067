import BoundaryTag.CommandLine.Options
import BoundaryTag.Heap.Dump
import BoundaryTag.Text.Decimal
import BoundaryTag.Trace.Load
import BoundaryTag.Trace.Replay

/-!
# Sessions

Each trace is replayed on a heap of its own. A session prints a heading, the rows of the traces in
order, and an average when there is anything to average. On the other stream it says which traces
have no row and why, and the log stands in between. A fault ends it.
-/
namespace BoundaryTag.CommandLine

open Text

/-- What a session meets outside the program. A turn is the number of traces before the present
one. -/
structure System where
  /-- What there is to read at a path. -/
  read : Nat → String → Except FileError String
  /-- What comes of asking for a mapping. -/
  map : Nat → Mapper
  /-- The system's own choice of what is logged, if it has one. -/
  filter? : Option (Event → Bool)

/-- Whether an event is logged: by default, whether it is severe enough. -/
def System.logs (system : System) (options : Options) (event : Event) : Bool :=
  match system.filter? with
  | some passes => passes event
  | none => options.threshold.severity ≤ event.level.severity

/-- Why a trace has no row. -/
inductive Failure where
  | load (source : LoadError)
  | arena (source : ArenaError)
  | heap (source : AllocError)
  | replay (source : ReplayError)
  /-- The replay left a heap that is not sound. -/
  | inconsistent
deriving DecidableEq, Repr

def Failure.message : Failure → String
  | .load source => source.message
  | .arena source => source.message
  | .heap source => source.message
  | .replay source => source.message
  | .inconsistent => "heap left inconsistent after replay"

/-- How it went with one trace. -/
inductive Ending where
  | replayed (report : Report)
  | failed (failure : Failure)
  /-- The session ends here. -/
  | faulted (fault : Fault)

/-- What came of one trace. -/
structure TraceResult where
  /-- All there is to log, earliest first. -/
  log : List Event := []
  /-- The heap after the replay, if it is to be shown. -/
  dump : String := ""
  ending : Ending

/-- Replays a trace on a new heap. -/
def runOn (arena : Arena) (options : Options) (trace : Trace) : TraceResult :=
  match Heap.build (Heap.unbuilt arena options.config) with
  | .error fault heap => { log := heap.journal.toList, ending := .faulted fault }
  | .ok (.error source) heap => { log := heap.journal.toList, ending := .failed (.heap source) }
  | .ok (.ok ()) heap =>
    match trace.replay heap with
    | .error fault heap => { log := heap.journal.toList, ending := .faulted fault }
    | .ok (.error source) heap => { log := heap.journal.toList, ending := .failed (.replay source) }
    | .ok (.ok report) heap =>
      match if options.dump then heap.dump else .ok "" with
      | .error fault => { log := heap.journal.toList, ending := .faulted fault }
      | .ok dump =>
        -- The heap has been shown when it turns out whether it is sound.
        match Heap.check heap with
        | .error fault heap => { log := heap.journal.toList, dump, ending := .faulted fault }
        | .ok true heap => { log := heap.journal.toList, dump, ending := .replayed report }
        | .ok false heap => { log := heap.journal.toList, dump, ending := .failed .inconsistent }

/-- The mapping under an arena, as the log tells of it. -/
def mappingLog (map : Mapper) (arena : Arena) : List Event :=
  match map arena.capacity with
  | .failed _ => []
  | .made base _ => [.mapped arena.capacity base]

/-- Loads and replays a trace. -/
def runTrace (options : Options) (contents : Except FileError String) (map : Mapper) :
    TraceResult :=
  match Trace.load contents with
  | .error source => { ending := .failed (.load source) }
  | .ok trace =>
    if options.mapped then
      match Arena.mapping map options.maxHeap with
      | .error fault => { ending := .faulted fault }
      | .ok (.error source) => { ending := .failed (.arena source) }
      | .ok (.ok arena) =>
        let result := runOn arena options trace
        { result with log := mappingLog map arena ++ result.log }
    else runOn (Arena.buffer options.maxHeap) options trace

/-- A line of the table, with the last cell as wide as it is to be. -/
def tableLine (name operations peak arena share : String) : String :=
  s!"{alignLeft 32 name} {alignRight 8 operations} {alignRight 10 peak} {alignRight 10 arena} "
    ++ s!"{share}\n"

def heading : String :=
  tableLine "trace" "ops" "peak" "arena" (alignRight 7 "util")

/-- A share of one as a percentage with one decimal place. -/
def percentage (share : Float) : String :=
  alignRight 6 (decimal 1 (share * 100)) ++ "%"

def row (path : String) (report : Report) : String :=
  tableLine path (toString report.operations) (toString report.peakPayload)
    (toString report.arenaBytes) (percentage report.utilization)

/-- The last line of the table, if there are rows. -/
def averageRow (reports : List Report) : String :=
  if reports.isEmpty then ""
  else
    let total := reports.foldl (fun total report => total + report.utilization) 0
    let average := total / (UInt64.ofNat reports.length).toFloat
    tableLine "average" "" "" "" (percentage average)

/-- A line on the stream for errors. -/
inductive Notice where
  /-- A line of the log, which has the time and the place in front of it. -/
  | logged (event : Event)
  /-- A line of the program's own. -/
  | line (text : String)
  /-- What a fault leaves. -/
  | faulted (fault : Fault)

def Notice.text : Notice → String
  | .logged event => event.render
  | .line text => text
  | .faulted fault => fault.message?.getD "fault"

/-- What a program leaves behind. -/
structure Outcome where
  /-- Zero when all went well. -/
  exitCode : Nat
  output : String
  errors : List Notice

namespace Ending

def report? : Ending → Option Report
  | .replayed report => some report
  | _ => none

def fault? : Ending → Option Fault
  | .faulted fault => some fault
  | _ => none

end Ending

namespace TraceResult

def output (path : String) (result : TraceResult) : String :=
  match result.ending with
  | .replayed report => result.dump ++ row path report
  | _ => result.dump

/-- What goes to the stream for errors: what is logged, and the end if there is no row. -/
def errors (logs : Event → Bool) (path : String) (result : TraceResult) : List Notice :=
  let ending := match result.ending with
    | .replayed _ => []
    | .failed failure => [.line s!"{path}: {failure.message}"]
    | .faulted fault => [.faulted fault]
  (result.log.filter logs).map .logged ++ ending

end TraceResult

/-- The results of traces in order, up to the first fault. -/
def runTraces (options : Options) (system : System) (turn : Nat) (paths : List String) :
    List (String × TraceResult) :=
  match paths with
  | [] => []
  | path :: rest =>
    let result := runTrace options (system.read turn path) (system.map turn)
    match result.ending with
    | .faulted _ => [(path, result)]
    | _ => (path, result) :: runTraces options system (turn + 1) rest

/-- The exit code of a session that met a fault. -/
def faultCode : Nat := 101

/-- Replays the traces on heaps of a configuration that is in order. -/
def runSession (options : Options) (system : System) : Outcome :=
  let results := runTraces options system 0 options.traces
  let table := heading ++ String.join (results.map fun (path, result) => result.output path)
  let errors := results.flatMap fun (path, result) => result.errors (system.logs options) path
  let endings := results.map fun (_, result) => result.ending
  let reports := endings.filterMap Ending.report?
  if endings.any (·.fault?.isSome) then { exitCode := faultCode, output := table, errors }
  else
    { exitCode := if endings.all (·.report?.isSome) then 0 else 1
      output := table ++ averageRow reports
      errors }

/-- Runs the program. -/
def run (options : Options) (system : System) : Outcome :=
  match options.config.validate with
  | .error error => { exitCode := 1, output := "", errors := [.line s!"Error: {error.message}"] }
  | .ok () => runSession options system

end BoundaryTag.CommandLine
