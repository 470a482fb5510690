import IdMint.Coordination.Settings
import IdMint.Counter.Issue
import IdMint.Json.Record
import IdMint.LocalIds

/-! # Documents

The shapes in which settings and packed identifiers are kept as JSON. Settings may leave out any
field; a packed identifier has to be complete. -/

namespace IdMint

open Json

/-- The shape of local settings. -/
def LocalSettings.shape : Shape LocalSettings where
  standard := .standard
  complete := false
  fields :=
    [field "datacenterId" .uint64 datacenter fun v s => { s with datacenter := v },
      field "machineId" .uint64 machine fun v s => { s with machine := v }]

/-- The shape of counter settings. -/
def CounterSettings.shape : Shape CounterSettings where
  standard := .standard
  complete := false
  fields :=
    [field "prefix" .text scope fun v s => { s with scope := v },
      field "length" .uint64 length fun v s => { s with length := v },
      field "step" .uint64 step fun v s => { s with step := v }]

/-- The shape of the parameters of exponential backoff. -/
def BackoffSettings.shape : Shape BackoffSettings where
  standard := .standard
  complete := false
  fields :=
    [field "baseSleepTimeMs" .uint64 baseSleepMs fun v s => { s with baseSleepMs := v },
      field "maxRetries" .uint32 maxRetries fun v s => { s with maxRetries := v }]

/-- The shape of the parameters of bounded exponential backoff. -/
def BoundedBackoffSettings.shape : Shape BoundedBackoffSettings where
  standard := .standard
  complete := false
  fields :=
    [field "baseSleepTimeMs" .uint64 baseSleepMs fun v s => { s with baseSleepMs := v },
      field "maxSleepTimeMs" .uint64 maxSleepMs fun v s => { s with maxSleepMs := v },
      field "maxRetries" .uint32 maxRetries fun v s => { s with maxRetries := v }]

/-- The shape of the parameters of counted retries. -/
def NTimesSettings.shape : Shape NTimesSettings where
  standard := .standard
  complete := false
  fields :=
    [field "count" .uint32 count fun v s => { s with count := v },
      field "sleepMsBetweenRetries" .uint64 sleepMs fun v s => { s with sleepMs := v }]

/-- The shape of the parameters of endless retries. -/
def ForeverSettings.shape : Shape ForeverSettings where
  standard := .standard
  complete := false
  fields := [field "retryIntervalMs" .uint64 intervalMs fun v s => { s with intervalMs := v }]

/-- The shape of the parameters of retries within a time span. -/
def UntilElapsedSettings.shape : Shape UntilElapsedSettings where
  standard := .standard
  complete := false
  fields :=
    [field "maxElapsedTimeMs" .uint64 maxElapsedMs fun v s => { s with maxElapsedMs := v },
      field "sleepMsBetweenRetries" .uint64 sleepMs fun v s => { s with sleepMs := v }]

/-- The shape of retry settings. -/
def RetrySettings.shape : Shape RetrySettings where
  standard := .standard
  complete := false
  fields :=
    [field "retryType" .text tag fun v s => { s with tag := v },
      field "exponentialBackoffRetry" BackoffSettings.shape.codec exponentialBackoff
        fun v s => { s with exponentialBackoff := v },
      field "boundedExponentialBackoffRetry" BoundedBackoffSettings.shape.codec
        boundedExponentialBackoff fun v s => { s with boundedExponentialBackoff := v },
      field "retryNTimes" NTimesSettings.shape.codec nTimes fun v s => { s with nTimes := v },
      field "retryForever" ForeverSettings.shape.codec forever fun v s => { s with forever := v },
      field "retryUntilElapsed" UntilElapsedSettings.shape.codec untilElapsed
        fun v s => { s with untilElapsed := v }]

/-- The shape of coordination settings. -/
def CoordinationSettings.shape : Shape CoordinationSettings where
  standard := .standard
  complete := false
  fields :=
    [field "prefix" .text rootName fun v s => { s with rootName := v },
      field "connectString" .text connectString fun v s => { s with connectString := v },
      field "sessionTimeoutMs" .uint64 sessionTimeoutMs fun v s => { s with sessionTimeoutMs := v },
      field "connectionTimeoutMs" .uint64 connectionTimeoutMs
        fun v s => { s with connectionTimeoutMs := v },
      field "retry" RetrySettings.shape.codec retry fun v s => { s with retry := v }]

/-- The shape of a packed identifier, which has to be complete. -/
def PackedId.shape : Shape PackedId where
  standard := ⟨0⟩
  complete := true
  fields := [Json.field "id" .uint64 raw fun v s => { s with raw := v }]

example : LocalSettings.shape.parse "[1]" = .ok ⟨1, 0⟩ := by cbv
example : LocalSettings.shape.parse "\x7b\"machineId\": 3\x7d" = .ok ⟨0, 3⟩ := by cbv
example : LocalSettings.shape.parse "\x7b\"machineId\": -0\x7d" = .error .mismatched := by cbv
example : PackedId.shape.parse "\x7b\x7d" = .error .mismatched := by cbv
example : PackedId.shape.print ⟨5⟩ = "\x7b\"id\":5\x7d" := by cbv

end IdMint
