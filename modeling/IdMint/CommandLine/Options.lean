import IdMint.Retry.Settings

/-! # Options

The options of the command line: their names, the environment variables that stand in for them, the
values that they take and the values that they have when nobody sets them. -/

namespace IdMint.CommandLine

/-- Where identifiers come from. -/
inductive Strategy
  /-- A generator in the process. -/
  | localIds
  /-- A counter of a shared store. -/
  | counter
  /-- A node of a coordination service. -/
  | sequence
  deriving DecidableEq, Inhabited, Repr

namespace Strategy

/-- All strategies. -/
def all : List Strategy := [localIds, counter, sequence]

/-- The value by which the command line names a strategy. -/
def tag : Strategy → String
  | localIds => "local"
  | counter => "counter"
  | sequence => "sequence"

/-- The name of a strategy in messages. -/
def label : Strategy → String
  | localIds => "Local"
  | counter => "Counter"
  | sequence => "Sequence"

/-- The strategy that a value names; upper and lower case differ. -/
def ofTag? (text : String) : Option Strategy := all.find? fun strategy => strategy.tag = text

theorem ofTag?_tag (strategy : Strategy) : ofTag? strategy.tag = some strategy := by
  cases strategy <;> rfl

end Strategy

/-! ## Names -/

/-- An option of the command line. -/
inductive OptionName
  | strategy | count | datacenter | machine | decode | scope | name | key | step | length
  | connectString | retryType | retryBaseSleep | retryMaxRetries | retryMaxSleep | retryCount
  | retrySleepBetween | retryInterval | retryMaxElapsed | sessionTimeout | connectionTimeout
  | startTimeout | inProcess
  deriving DecidableEq, Inhabited, Repr

namespace OptionName

/-- All options, in the order in which the environment is asked for them. -/
def all : List OptionName :=
  [strategy, count, datacenter, machine, decode, scope, name, key, step, length, connectString,
    retryType, retryBaseSleep, retryMaxRetries, retryMaxSleep, retryCount, retrySleepBetween,
    retryInterval, retryMaxElapsed, sessionTimeout, connectionTimeout, startTimeout, inProcess]

/-- Every option is listed. -/
theorem mem_all (option : OptionName) : option ∈ all := by cases option <;> simp [all]

/-- The name of an option behind two dashes. -/
def long : OptionName → String
  | strategy => "strategy"
  | count => "count"
  | datacenter => "datacenter-id"
  | machine => "machine-id"
  | decode => "decode"
  | scope => "prefix"
  | name => "name"
  | key => "key"
  | step => "step"
  | length => "length"
  | connectString => "connect-string"
  | retryType => "retry-type"
  | retryBaseSleep => "retry-base-sleep-ms"
  | retryMaxRetries => "retry-max-retries"
  | retryMaxSleep => "retry-max-sleep-ms"
  | retryCount => "retry-count"
  | retrySleepBetween => "retry-sleep-between-ms"
  | retryInterval => "retry-interval-ms"
  | retryMaxElapsed => "retry-max-elapsed-ms"
  | sessionTimeout => "session-timeout-ms"
  | connectionTimeout => "connection-timeout-ms"
  | startTimeout => "start-timeout-ms"
  | inProcess => "in-process"

/-- A name in capitals, with low lines in place of dashes. -/
def capitals (text : String) : String :=
  String.ofList (text.toList.map fun c => if c = '-' then '_' else c.toUpper)

/-- The environment variable of an option. -/
def environmentName (option : OptionName) : String := "IDFORGE_" ++ capitals option.long

/-- Whether the environment is asked for an option. -/
def fromEnvironment (option : OptionName) : Bool := option ≠ decode

/-- Whether an option is a switch, which takes no value on the command line. -/
def isSwitch (option : OptionName) : Bool := option = decode || option = inProcess

/-- The option of a name. -/
def ofLong? (text : String) : Option OptionName := all.find? fun option => option.long = text

end OptionName

/-! ## Misuse -/

/-- What can be wrong with the command line. -/
inductive Misuse
  /-- An argument that is neither an option nor the value of one. -/
  | unknownArgument
  /-- A value is missing or none of those permitted. -/
  | invalidValue
  /-- A value is no number or too large. -/
  | unreadableNumber
  /-- An option is given twice. -/
  | repeatedOption
  /-- A switch is given a value. -/
  | unexpectedValue
  deriving DecidableEq, Inhabited, Repr

/-! ## Values -/

/-- What the command line says about retrying: a number for each parameter that it mentions. -/
structure RetryChoices where
  baseSleepMs : Option UInt64
  maxRetries : Option UInt32
  maxSleepMs : Option UInt64
  count : Option UInt32
  sleepBetweenMs : Option UInt64
  intervalMs : Option UInt64
  maxElapsedMs : Option UInt64
  deriving DecidableEq, Inhabited, Repr

/-- The values of all options. -/
structure Options where
  strategy : Strategy
  count : UInt64
  datacenter : UInt64
  machine : UInt64
  decode : Bool
  scope : String
  name : String
  key : String
  step : UInt64
  length : UInt64
  connectString : String
  retryType : String
  retry : RetryChoices
  sessionTimeoutMs : UInt64
  connectionTimeoutMs : UInt64
  startTimeoutMs : UInt64
  inProcess : Bool
  deriving DecidableEq, Inhabited, Repr

/-- The values of options that nobody sets. -/
def Options.standard : Options where
  strategy := .localIds
  count := 1
  datacenter := 0
  machine := 0
  decode := false
  scope := "idforge"
  name := "default"
  key := "default"
  step := 1
  length := 8
  connectString := "localhost:2181"
  retryType := RetryKind.exponentialBackoff.tag
  retry := ⟨none, none, none, none, none, none, none⟩
  sessionTimeoutMs := 15000
  connectionTimeoutMs := 15000
  startTimeoutMs := 30000
  inProcess := false

/-- Reads an unsigned 64-bit number. -/
def readUInt64 (text : String) : Except Misuse UInt64 :=
  match Decimal.uint64? text with
  | some n => .ok n
  | none => .error .unreadableNumber

/-- Reads an unsigned 32-bit number; zero may have a minus sign. -/
def readUInt32 (text : String) : Except Misuse UInt32 :=
  match Decimal.signed? text.toList with
  | some n =>
    if 0 ≤ n ∧ n < UInt32.size then .ok (UInt32.ofNat n.toNat) else .error .unreadableNumber
  | none => .error .unreadableNumber

/-- Reads a truth value. -/
def readBool (text : String) : Except Misuse Bool :=
  if text = "true" then .ok true
  else if text = "false" then .ok false
  else .error .invalidValue

/-- Reads a strategy. -/
def readStrategy (text : String) : Except Misuse Strategy :=
  match Strategy.ofTag? text with
  | some strategy => .ok strategy
  | none => .error .invalidValue

namespace RetryChoices

/-- The retry settings that follow from the choices: a number that is given goes into every set of
parameters that has a place for it. -/
def settings (choices : RetryChoices) (kind : RetryKind) : RetrySettings :=
  let backoff := BackoffSettings.standard
  let bounded := BoundedBackoffSettings.standard
  let nTimes := NTimesSettings.standard
  let untilElapsed := UntilElapsedSettings.standard
  { tag := kind.tag
    exponentialBackoff :=
      ⟨choices.baseSleepMs.getD backoff.baseSleepMs, choices.maxRetries.getD backoff.maxRetries⟩
    boundedExponentialBackoff :=
      ⟨choices.baseSleepMs.getD bounded.baseSleepMs, choices.maxSleepMs.getD bounded.maxSleepMs,
        choices.maxRetries.getD bounded.maxRetries⟩
    nTimes := ⟨choices.count.getD nTimes.count, choices.sleepBetweenMs.getD nTimes.sleepMs⟩
    forever := ⟨choices.intervalMs.getD ForeverSettings.standard.intervalMs⟩
    untilElapsed :=
      ⟨choices.maxElapsedMs.getD untilElapsed.maxElapsedMs,
        choices.sleepBetweenMs.getD untilElapsed.sleepMs⟩ }

end RetryChoices

namespace Options

/-- Changes what is said about retrying. -/
def modifyRetry (o : Options) (f : RetryChoices → RetryChoices) : Options :=
  { o with retry := f o.retry }

/-- Sets an option to the value that a text stands for. -/
def assign (o : Options) (option : OptionName) (text : String) : Except Misuse Options :=
  match option with
  | .strategy => return { o with strategy := ← readStrategy text }
  | .count => return { o with count := ← readUInt64 text }
  | .datacenter => return { o with datacenter := ← readUInt64 text }
  | .machine => return { o with machine := ← readUInt64 text }
  | .decode => return { o with decode := ← readBool text }
  | .scope => .ok { o with scope := text }
  | .name => .ok { o with name := text }
  | .key => .ok { o with key := text }
  | .step => return { o with step := ← readUInt64 text }
  | .length => return { o with length := ← readUInt64 text }
  | .connectString => .ok { o with connectString := text }
  | .retryType => .ok { o with retryType := text }
  | .retryBaseSleep => do
    let n ← readUInt64 text
    return o.modifyRetry ({ · with baseSleepMs := n })
  | .retryMaxRetries => do
    let n ← readUInt32 text
    return o.modifyRetry ({ · with maxRetries := n })
  | .retryMaxSleep => do
    let n ← readUInt64 text
    return o.modifyRetry ({ · with maxSleepMs := n })
  | .retryCount => do
    let n ← readUInt32 text
    return o.modifyRetry ({ · with count := n })
  | .retrySleepBetween => do
    let n ← readUInt64 text
    return o.modifyRetry ({ · with sleepBetweenMs := n })
  | .retryInterval => do
    let n ← readUInt64 text
    return o.modifyRetry ({ · with intervalMs := n })
  | .retryMaxElapsed => do
    let n ← readUInt64 text
    return o.modifyRetry ({ · with maxElapsedMs := n })
  | .sessionTimeout => return { o with sessionTimeoutMs := ← readUInt64 text }
  | .connectionTimeout => return { o with connectionTimeoutMs := ← readUInt64 text }
  | .startTimeout => return { o with startTimeoutMs := ← readUInt64 text }
  | .inProcess => return { o with inProcess := ← readBool text }

end Options

end IdMint.CommandLine
