import IdMint.Error

/-! # Clocks

A time source answers a reading in milliseconds since its epoch, each time it is asked; readings may
stand still, jump ahead or go back. Three sources are described here: a script of readings, the wall
clock, and a monotonic clock that a ticker moves. -/

namespace IdMint

universe u

/-- A source of readings in milliseconds since an epoch. -/
class TimeSource (σ : Type u) where
  /-- The next reading, and the source after it. -/
  read : σ → UInt64 × σ
  /-- The epoch, in milliseconds since the Unix epoch. -/
  epoch : σ → UInt64

/-! ## Readings one after the other -/

/-- A source that answers the values of a sequence in order, counted from the Unix epoch. -/
instance : TimeSource (Nat → UInt64) where
  read readings := (readings 0, fun n => readings (n + 1))
  epoch _ := 0

@[simp] theorem TimeSource.read_sequence (readings : Nat → UInt64) :
    TimeSource.read readings = (readings 0, fun n => readings (n + 1)) := rfl

/-! ## Scripted clocks -/

/-- A clock that follows a script: it first answers the readings of a queue, and then stands still
at the last one, moving on by a millisecond after every `stall` readings. It answers each reading at
which it stands at least once. -/
structure ScriptedClock where
  /-- The readings that are answered first. -/
  queue : List UInt64
  /-- The reading at which the clock stands when the queue is empty. -/
  base : UInt64
  /-- How often that reading has been answered. -/
  same : Nat
  /-- How often a reading is answered before the clock moves on; zero counts as one. -/
  stall : Nat
  /-- The epoch, in milliseconds since the Unix epoch. -/
  epoch : UInt64
  deriving DecidableEq, Inhabited, Repr

namespace ScriptedClock

/-- The reading after the given one: the greatest has none. -/
def tick (reading : UInt64) : UInt64 := if reading = 0xFFFFFFFFFFFFFFFF then reading else reading + 1

/-- The next reading, and the clock after it. -/
def read (c : ScriptedClock) : UInt64 × ScriptedClock :=
  match c.queue with
  | r :: queue => (r, { c with queue, base := r, same := 0 })
  | [] =>
    if max 1 c.stall ≤ c.same then (tick c.base, { c with base := tick c.base, same := 1 })
    else (c.base, { c with same := c.same + 1 })

instance : TimeSource ScriptedClock := ⟨read, epoch⟩

/-- A number of readings within which the clock moves on, or stands at its greatest reading. -/
def patience (c : ScriptedClock) : Nat := c.queue.length + c.stall + 2

/-- Sets the clock to a reading; the queue stays. -/
def set (c : ScriptedClock) (reading : UInt64) : ScriptedClock := { c with base := reading, same := 0 }

/-- Appends readings to the queue. -/
def push (c : ScriptedClock) (readings : List UInt64) : ScriptedClock :=
  { c with queue := c.queue ++ readings }

end ScriptedClock

/-! ## The wall clock -/

/-- The epoch from which identifiers are counted unless another one is chosen: 2016-12-31 16:00:00
UTC, in milliseconds since the Unix epoch. -/
def standardEpoch : UInt64 := 1483200000000

/-- The system time in milliseconds since the Unix epoch, in 64 bits; a system clock that reads
earlier than the Unix epoch counts as zero. -/
def systemMillis (sinceUnixEpoch : Option Duration) : UInt64 :=
  match sinceUnixEpoch with
  | none => 0
  | some d => UInt64.ofNat d.millis

/-- The wall clock, counted from an epoch. -/
structure WallClock where
  /-- The epoch, in milliseconds since the Unix epoch. -/
  epoch : UInt64
  deriving DecidableEq, Inhabited, Repr

namespace WallClock

/-- A wall clock whose epoch is a time span after the Unix epoch, taken in whole milliseconds and in
64 bits. Refused while the system time `now` is earlier than the epoch. -/
def ofEpoch (epoch : Duration) (now : UInt64) : Outcome WallClock :=
  let epoch := UInt64.ofNat epoch.millis
  if now < epoch then .error .clockBeforeEpoch else .ok ⟨epoch⟩

/-- The reading while the system time is `now`; zero before the epoch. -/
def reading (c : WallClock) (now : UInt64) : UInt64 := if now < c.epoch then 0 else now - c.epoch

end WallClock

/-- A wall clock together with the system times that it will find. -/
structure WatchedWallClock where
  clock : WallClock
  /-- The system times, in milliseconds since the Unix epoch. -/
  system : Nat → UInt64

instance : TimeSource WatchedWallClock where
  read c := (c.clock.reading (c.system 0), { c with system := fun n => c.system (n + 1) })
  epoch c := c.clock.epoch

/-! ## The monotonic clock -/

/-- The ticker of a monotonic clock: a loop that stores the time since its start in whole
milliseconds, sleeping before each iteration until its next tick is due. Both numbers are kept in 64
bits, of which milliseconds fill more than five hundred million years. -/
structure Ticker where
  /-- The stored time, in milliseconds since the start. -/
  shown : Nat
  /-- The tick that the next iteration waits for, in milliseconds since the start. -/
  due : Nat
  deriving DecidableEq, Inhabited, Repr

namespace Ticker

/-- The ticker before its first iteration. -/
def start : Ticker := ⟨0, 0⟩

/-- How long an iteration that begins at the given time since the start has to sleep. -/
def sleep (t : Ticker) (began : Duration) : Duration := ⟨(Duration.ofMillis t.due).nanos - began.nanos⟩

/-- An iteration that stores its time at the given time since the start. -/
def store (_ : Ticker) (elapsed : Duration) : Ticker := ⟨elapsed.millis, elapsed.millis + 1⟩

end Ticker

/-- A clock that counts from an epoch and does not follow changes of the system time. -/
structure MonotonicClock where
  /-- The epoch, in milliseconds since the Unix epoch. -/
  epoch : UInt64
  /-- The milliseconds from the epoch to the start of the ticker. -/
  offset : UInt64
  /-- The ticker, which all copies of the clock share. -/
  ticker : Ticker
  deriving DecidableEq, Inhabited, Repr

namespace MonotonicClock

/-- A monotonic clock whose epoch is a time span after the Unix epoch, taken in whole milliseconds
and in 64 bits. Refused while the system time `now` is earlier than the epoch. -/
def ofEpoch (epoch : Duration) (now : UInt64) : Outcome MonotonicClock :=
  let epoch := UInt64.ofNat epoch.millis
  if now < epoch then .error .clockBeforeEpoch else .ok ⟨epoch, now - epoch, .start⟩

/-- The present reading. -/
def reading (c : MonotonicClock) : UInt64 := c.offset + UInt64.ofNat c.ticker.shown

/-- Reading a monotonic clock does not change it. -/
instance : TimeSource MonotonicClock where
  read c := (c.reading, c)
  epoch c := c.epoch

end MonotonicClock

end IdMint
