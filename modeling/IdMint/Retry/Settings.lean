import IdMint.Retry.Kind

/-! # Retry settings

Retry settings as a deployment writes them: the tag of one kind of policy, and parameters for every
kind. Only the parameters of the kind that the tag names are used. -/

namespace IdMint

/-- Parameters of `RetryKind.exponentialBackoff`. -/
structure BackoffSettings where
  /-- The base of every sleep, in milliseconds. -/
  baseSleepMs : UInt64
  /-- The greatest number of retries. -/
  maxRetries : UInt32
  deriving DecidableEq, Inhabited, Repr

/-- Parameters of `RetryKind.boundedExponentialBackoff`. -/
structure BoundedBackoffSettings where
  /-- The base of every sleep, in milliseconds. -/
  baseSleepMs : UInt64
  /-- The longest single sleep, in milliseconds. -/
  maxSleepMs : UInt64
  /-- The greatest number of retries. -/
  maxRetries : UInt32
  deriving DecidableEq, Inhabited, Repr

/-- Parameters of `RetryKind.nTimes`. -/
structure NTimesSettings where
  /-- The number of retries. -/
  count : UInt32
  /-- The sleep before every retry, in milliseconds. -/
  sleepMs : UInt64
  deriving DecidableEq, Inhabited, Repr

/-- Parameters of `RetryKind.forever`. -/
structure ForeverSettings where
  /-- The sleep before every retry, in milliseconds. -/
  intervalMs : UInt64
  deriving DecidableEq, Inhabited, Repr

/-- Parameters of `RetryKind.untilElapsed`. -/
structure UntilElapsedSettings where
  /-- The time since the first attempt after which no retry starts, in milliseconds. -/
  maxElapsedMs : UInt64
  /-- The sleep before every retry, in milliseconds. -/
  sleepMs : UInt64
  deriving DecidableEq, Inhabited, Repr

/-- Retry settings: a tag and the parameters of every kind. -/
structure RetrySettings where
  /-- The tag of the kind to use. -/
  tag : String
  exponentialBackoff : BackoffSettings
  boundedExponentialBackoff : BoundedBackoffSettings
  nTimes : NTimesSettings
  forever : ForeverSettings
  untilElapsed : UntilElapsedSettings
  deriving DecidableEq, Inhabited, Repr

/-- The parameters of exponential backoff where none are given. -/
def BackoffSettings.standard : BackoffSettings := ⟨2000, 10⟩

/-- The parameters of bounded exponential backoff where none are given. -/
def BoundedBackoffSettings.standard : BoundedBackoffSettings := ⟨2000, 60000, 10⟩

/-- The parameters of counted retries where none are given. -/
def NTimesSettings.standard : NTimesSettings := ⟨10, 2000⟩

/-- The parameters of endless retries where none are given. -/
def ForeverSettings.standard : ForeverSettings := ⟨2000⟩

/-- The parameters of retries within a time span where none are given. -/
def UntilElapsedSettings.standard : UntilElapsedSettings := ⟨60000, 2000⟩

/-- The retry settings where none are given: exponential backoff. -/
def RetrySettings.standard : RetrySettings where
  tag := RetryKind.exponentialBackoff.tag
  exponentialBackoff := .standard
  boundedExponentialBackoff := .standard
  nTimes := .standard
  forever := .standard
  untilElapsed := .standard

end IdMint
