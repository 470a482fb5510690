import IdMint.Batch
import IdMint.CommandLine.Options
import IdMint.Coordination.Settings
import IdMint.Counter.Issue
import IdMint.LocalIds

/-! # Jobs

What a run of the program is to do: the options of the command line after validation, as settings of
the generators. Values are refused only where the chosen strategy uses them, except for the ranges of
local identifiers and for the kind of retry policy, which always have to be right. -/

namespace IdMint.CommandLine

/-- The reason why options are refused. -/
inductive Refusal
  /-- The number of identifiers is zero or above the limit. -/
  | count (given : UInt64)
  /-- The datacenter is too large. -/
  | datacenter (given : UInt64)
  /-- The machine is too large. -/
  | machine (given : UInt64)
  /-- The strategy needs a backend that only lives as long as the process, and nobody asked for it. -/
  | notShared (strategy : Strategy)
  /-- The value of an option is empty. -/
  | empty (option : OptionName)
  /-- The value of an option is zero. -/
  | zero (option : OptionName)
  /-- The kind of retry policy is unknown. -/
  | retryKind (cause : Error)
  deriving DecidableEq, Inhabited, Repr

/-- The words in which a refusal is reported. -/
def Refusal.message : Refusal → String
  | count given =>
    OptionName.count.environmentName ++ " (" ++ toString given ++ ") must be between 1 and "
      ++ toString Batch.limit
  | datacenter given =>
    OptionName.datacenter.environmentName ++ " (" ++ toString given
      ++ ") exceeds the datacenter ID space (max = " ++ toString IdField.datacenter.greatest ++ ")"
  | machine given =>
    OptionName.machine.environmentName ++ " (" ++ toString given
      ++ ") exceeds the machine ID space (max = " ++ toString IdField.machine.greatest ++ ")"
  | notShared strategy =>
    "the " ++ strategy.label ++ " strategy needs a shared backend and this binary only ships "
      ++ "in-process ones; set " ++ OptionName.inProcess.environmentName ++ " to use them anyway (IDs repeat "
      ++ "across runs)"
  | empty option => option.environmentName ++ " must not be empty"
  | zero option => option.environmentName ++ " must be greater than 0"
  | retryKind cause => OptionName.retryType.environmentName ++ ": " ++ cause.message

/-- What a run of the program is to do. -/
structure Job where
  strategy : Strategy
  /-- The number of identifiers to issue. -/
  count : UInt64
  /-- Whether local identifiers are shown with their fields. -/
  decode : Bool
  /-- The name that counters and sequence numbers are issued for. -/
  name : String
  /-- The key that counters and sequence numbers are issued for. -/
  key : String
  locals : LocalSettings
  counter : CounterSettings
  coordination : CoordinationSettings
  /-- How long starting the coordination session may take. -/
  startLimit : Option Duration
  /-- Whether backends that only live as long as the process will do. -/
  inProcess : Bool
  deriving DecidableEq, Inhabited

namespace Job

/-- Refuses a number of identifiers or a location out of range. -/
def checkRanges (o : Options) : Except Refusal Unit := do
  if o.count = 0 ∨ Batch.limit < o.count then throw (.count o.count)
  if IdField.datacenter.greatest < o.datacenter then throw (.datacenter o.datacenter)
  if IdField.machine.greatest < o.machine then throw (.machine o.machine)

/-- Refuses what a strategy with a backend cannot do with. -/
def checkBackend (o : Options) : Except Refusal Unit := do
  unless o.strategy = .localIds do
    unless o.inProcess do throw (.notShared o.strategy)
    if o.scope.isEmpty then throw (.empty .scope)
    if o.name.isEmpty then throw (.empty .name)
    if o.key.isEmpty then throw (.empty .key)

/-- Refuses a step or a width of zero. -/
def checkCounter (o : Options) : Except Refusal Unit := do
  if o.strategy = .counter then
    if o.step = 0 then throw (.zero .step)
    if o.length = 0 then throw (.zero .length)

/-- The kind of retry policy that the options name. -/
def retryKind (o : Options) : Except Refusal RetryKind :=
  match RetryKind.ofTag o.retryType with
  | .ok kind => .ok kind
  | .error cause => .error (.retryKind cause)

/-- Refuses a blank address of the coordination service. -/
def checkAddress (o : Options) : Except Refusal Unit := do
  if o.strategy = .sequence ∧ Text.allBlank o.connectString then throw (.empty .connectString)

/-- The job that valid options describe. -/
def describe (o : Options) (kind : RetryKind) : Job where
  strategy := o.strategy
  count := o.count
  decode := o.decode
  name := o.name
  key := o.key
  locals := ⟨o.datacenter, o.machine⟩
  counter := ⟨o.scope, o.length, o.step⟩
  coordination :=
    ⟨o.scope, o.connectString, o.sessionTimeoutMs, o.connectionTimeoutMs, o.retry.settings kind⟩
  startLimit := if o.startTimeoutMs = 0 then none else some (.ofMillis o.startTimeoutMs.toNat)
  inProcess := o.inProcess

/-- The job that the options describe, or the first reason to refuse them. -/
def ofOptions (o : Options) : Except Refusal Job := do
  checkRanges o
  checkBackend o
  checkCounter o
  let kind ← retryKind o
  checkAddress o
  return describe o kind

end Job

end IdMint.CommandLine
