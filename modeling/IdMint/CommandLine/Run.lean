import IdMint.CommandLine.Arguments
import IdMint.CommandLine.Help
import IdMint.CommandLine.Job
import IdMint.Coordination.Rehearsal
import IdMint.Coordination.Sequence

/-! # Runs

A run of the program from the arguments to its answer: the lines that it prints, what it complains
about, and the exit status. Counters and sequence numbers come from backends in memory that start
fresh with every run. -/

namespace IdMint.CommandLine

/-- What a run finds around it. -/
structure Surroundings where
  /-- The environment variables. -/
  environment : String → Option String
  /-- The system times since the Unix epoch that successive readings find, absent where the system
  clock reads earlier than that. -/
  times : Nat → Option Duration
  /-- The number of attempts after which a local identifier is given up. -/
  patience : Nat

/-- Why a job fails. -/
inductive Failure
  /-- The library reports an error. -/
  | reported (cause : Error)
  /-- An identifier is not read as the number whose fields are to be shown. -/
  | unreadable (fault : Decimal.Fault)
  deriving DecidableEq, Inhabited, Repr

namespace Job

/-- A local identifier followed by its fields. -/
def withFields (ids : LocalIds) (id : String) : Except Failure String := do
  let raw ← (Decimal.parseUInt64 id).mapError .unreadable
  let d := ids.decode raw
  return id ++ "\ttimestamp_ms=" ++ toString d.timestampMs ++ " datacenter_id="
    ++ toString d.datacenter ++ " machine_id=" ++ toString d.machine
    ++ " sequence=" ++ toString d.sequence

/-- The lines that show local identifiers. -/
def showIds (job : Job) (ids : LocalIds) (issued : List String) : Except Failure (List String) :=
  if job.decode then issued.mapM (withFields ids) else return issued

/-- Issues local identifiers on the wall clock. -/
def localIds (job : Job) (s : Surroundings) : Option (Except Failure (List String)) :=
  match WallClock.ofEpoch (.ofMillis standardEpoch.toNat) (systemMillis (s.times 0)) with
  | .error cause => some (.error (.reported cause))
  | .ok wall =>
    let clock : WatchedWallClock := ⟨wall, fun n => systemMillis (s.times (n + 1))⟩
    match LocalIds.ofSettings job.locals clock with
    | .error cause => some (.error (.reported cause))
    | .ok ids =>
      ((ids.nextMany s.patience job.count).run (.empty, clock)).map fun (result, _) =>
        result.mapError .reported >>= job.showIds ids

/-- Issues identifiers from a counter. -/
def counterIds (job : Job) (s : Surroundings) : Outcome (List String) := do
  let issuer ← Counter.Issuer.ofSettings job.counter
  let draw := issuer.nextManyFor job.name job.key job.counter.step job.counter.length job.count
  (draw.run (Counter.MemoryStore.empty s.times)).1

/-- Starts a session, issues sequence numbers and closes the session again; what comes of closing it
does not matter. -/
def sequenceProgram (job : Job) (session : Coordination.Session) :
    Coordination.Program (Outcome (List String)) := do
  match ← (session.start job.startLimit).run with
  | .error cause => return .error cause
  | .ok () =>
    let result ← (Coordination.Sequence.nextManyFor session job.name job.key job.count).run
    let _ ← Coordination.Session.close.run
    return result

/-- A number of steps within which a session without disturbances issues its numbers: one for each
number, and a few for starting, for the nodes and for closing. -/
def sequenceSteps (job : Job) : Nat := job.count.toNat + 16

/-- Issues sequence numbers. -/
def sequenceIds (job : Job) : Option (Outcome (List String)) :=
  match Coordination.Session.ofSettings job.coordination with
  | .error cause => some (.error cause)
  | .ok session =>
    (Coordination.rehearse session.policy job.sequenceSteps (job.sequenceProgram session) none
      (.opening .fresh .calm)).map fun (report, _) => report.result

/-- Issues identifiers as the job says. -/
def ids (job : Job) (s : Surroundings) : Option (Except Failure (List String)) :=
  match job.strategy with
  | .localIds => job.localIds s
  | .counter => some ((job.counterIds s).mapError .reported)
  | .sequence => job.sequenceIds.map (·.mapError .reported)

end Job

/-! ## Responses -/

/-- What a run shows for itself. -/
structure Response where
  /-- The exit status. -/
  status : UInt32
  /-- The lines of the standard output. -/
  output : List String
  /-- The text on the standard error. -/
  complaint : String
  deriving DecidableEq, Inhabited, Repr

/-- How a failure is reported: its words, and below them those of the backend's failure. -/
def report : Failure → String
  | .reported cause =>
    "Error: " ++ cause.message
      ++ match cause.source? with
        | none => ""
        | some source => "\n\nCaused by:\n" ++ String.intercalate "\n" (Text.setIn "    " source)
  | .unreadable fault => "Error: " ++ fault.message

namespace Response

/-- The response to a command line that is not read to its end. -/
def ofHalt (environment : String → Option String) : Halt → Response
  | .misuse fault => ⟨2, [], usageText fault⟩
  | .helpWanted long => ⟨0, helpLines environment long, ""⟩
  | .versionWanted => ⟨0, [versionLine], ""⟩

/-- The response to options that are refused. -/
def ofRefusal (refusal : Refusal) : Response := ⟨1, [], "Error: " ++ refusal.message⟩

/-- The response to a job that was done or that failed. -/
def ofResult : Except Failure (List String) → Response
  | .ok lines => ⟨0, lines, ""⟩
  | .error failure => ⟨1, [], report failure⟩

end Response

/-- Runs the program. Nothing comes of it only where the clock stands still for longer than the run is
ready to wait. -/
def run (arguments : List String) (s : Surroundings) : Option Response :=
  match Options.read arguments s.environment with
  | .error halt => some (.ofHalt s.environment halt)
  | .ok options =>
    match Job.ofOptions options with
    | .error refusal => some (.ofRefusal refusal)
    | .ok job => (job.ids s).map .ofResult

end IdMint.CommandLine
