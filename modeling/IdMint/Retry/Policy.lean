import IdMint.Retry.Settings

/-! # Retry policies

A policy decides, after a failed attempt, whether there is another one and how long to sleep before
it. Backoff policies multiply a base sleep by a random factor whose bound doubles with every retry;
the random number is an argument. -/

namespace IdMint

/-- A retry policy with its parameters. -/
inductive RetryPolicy
  /-- Sleeps a random multiple of `base`; stops after `maxRetries` or 29 retries. -/
  | exponentialBackoff (base : Duration) (maxRetries : UInt32)
  /-- Like `exponentialBackoff`, but no sleep is longer than `cap`. -/
  | boundedExponentialBackoff (base cap : Duration) (maxRetries : UInt32)
  /-- Sleeps the same time before each of `count` retries. -/
  | nTimes (count : UInt32) (sleep : Duration)
  /-- Sleeps the same time before each retry, without end. -/
  | forever (interval : Duration)
  /-- Sleeps the same time before each retry, as long as less than `limit` has passed. -/
  | untilElapsed (limit sleep : Duration)
  deriving DecidableEq, Inhabited, Repr

namespace RetryPolicy

/-- The most retries that a backoff policy allows, and the greatest exponent of its factor. -/
def backoffLimit : Nat := 29

/-- The kind of a policy. -/
def kind : RetryPolicy → RetryKind
  | exponentialBackoff .. => .exponentialBackoff
  | boundedExponentialBackoff .. => .boundedExponentialBackoff
  | nTimes .. => .nTimes
  | forever .. => .forever
  | untilElapsed .. => .untilElapsed

/-- The number of values that the random number before retry `retries` has: a power of two. -/
def spread (retries : Nat) : Nat := 2 ^ (min retries backoffLimit + 1)

theorem spread_pos (retries : Nat) : 0 < spread retries := Nat.two_pow_pos _

/-- The sleep before retry `retries` of a backoff policy: the base times the random number, or the
base itself where that number is zero. -/
def backoffSleep (base : Duration) (retries draw : Nat) : Duration :=
  base.scale (max 1 (draw % spread retries))

/-- The sleep before retry number `retries`, counted from zero, when `elapsed` has passed since the
first attempt; nothing when the policy gives up. -/
def allowRetry (policy : RetryPolicy) (retries : Nat) (elapsed : Duration) (draw : Nat) :
    Option Duration :=
  match policy with
  | exponentialBackoff base maxRetries =>
    if retries < min maxRetries.toNat backoffLimit then some (backoffSleep base retries draw) else none
  | boundedExponentialBackoff base cap maxRetries =>
    if retries < min maxRetries.toNat backoffLimit then
      some (Duration.min (backoffSleep base retries draw) cap)
    else none
  | nTimes count sleep => if retries < count.toNat then some sleep else none
  | forever interval => some interval
  | untilElapsed limit sleep => if elapsed < limit then some sleep else none

/-- The policy that the settings name. -/
def ofSettings (settings : RetrySettings) : Outcome RetryPolicy := do
  match ← RetryKind.ofTag settings.tag with
  | .exponentialBackoff =>
    let s := settings.exponentialBackoff
    return exponentialBackoff (.ofMillis s.baseSleepMs.toNat) s.maxRetries
  | .boundedExponentialBackoff =>
    let s := settings.boundedExponentialBackoff
    return boundedExponentialBackoff (.ofMillis s.baseSleepMs.toNat)
      (.ofMillis s.maxSleepMs.toNat) s.maxRetries
  | .nTimes => return nTimes settings.nTimes.count (.ofMillis settings.nTimes.sleepMs.toNat)
  | .forever => return forever (.ofMillis settings.forever.intervalMs.toNat)
  | .untilElapsed =>
    let s := settings.untilElapsed
    return untilElapsed (.ofMillis s.maxElapsedMs.toNat) (.ofMillis s.sleepMs.toNat)

end RetryPolicy

end IdMint
