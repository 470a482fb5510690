import IdMint.Counter.Reply
import IdMint.Duration
import Std.Data.ExtHashMap

/-! # Counter stores

A counter store runs scripts atomically. The store in memory understands only the increment script;
it keeps signed 64-bit counters, and an increment that would overflow fails and changes nothing. The
replayed store answers a list of prepared replies and remembers the calls. -/

namespace IdMint.Counter

/-- A call to a counter store. -/
structure Call where
  script : String
  keys : List String
  args : List String
  deriving DecidableEq, Inhabited, Repr

/-- A store that runs scripts. -/
class Store (σ : Type) where
  /-- Runs a script and returns the elements of its reply. -/
  run : Call → σ → Except Fault (List ReplyValue) × σ

/-! ## The store in memory -/

/-- A clock of the server: each reading is the time since the Unix epoch, absent while the clock
reads earlier than that. -/
class ServerClock (τ : Type) where
  read : τ → Option Duration × τ

/-- A clock that answers the times of a sequence in order. -/
instance : ServerClock (Nat → Option Duration) where
  read times := (times 0, fun n => times (n + 1))

/-- A clock that stands still. -/
structure StoppedClock where
  time : Option Duration

instance : ServerClock StoppedClock := ⟨fun c => (c.time, c)⟩

-- What a map needs of its keys, named once for all maps with text as keys.
instance instEquivBEqString : EquivBEq String := inferInstance

instance instLawfulHashableString : LawfulHashable String := inferInstance

/-- The counters by their keys. -/
abbrev Counters : Type := Std.ExtHashMap String Int64

/-- The value from which a counter goes on: zero if it was never touched. -/
def Counters.value (counters : Counters) (key : String) : Int64 := counters[key]?.getD 0

/-- A store in memory with the clock of its server. -/
structure MemoryStore (τ : Type) where
  counters : Counters
  clock : τ

namespace MemoryStore

/-- A store without counters. -/
def empty (clock : τ) : MemoryStore τ := ⟨∅, clock⟩

/-- The present value of a counter, if it was ever touched. -/
def counter? (store : MemoryStore τ) (key : String) : Option Int64 := store.counters[key]?

/-- Sets a counter. -/
def setCounter (store : MemoryStore τ) (key : String) (value : Int64) : MemoryStore τ :=
  { store with counters := store.counters.insert key value }

/-- The reply of the increment script at a time since the Unix epoch. -/
def reply (time : Duration) (count : Int64) : List ReplyValue :=
  [.bulk (toString (time.nanos / 10 ^ 9)), .bulk (toString (time.nanos % 10 ^ 9 / 1000)), .int count]

/-- Runs the increment script on one key with one argument. -/
def increment [ServerClock τ] (store : MemoryStore τ) (keys args : List String) :
    Except Fault (List ReplyValue) × MemoryStore τ :=
  match keys, args with
  | [key], [arg] =>
    match Decimal.int64? arg with
    | none => (.error (.script "value is not an integer or out of range"), store)
    | some step =>
      match Decimal.toInt64? ((store.counters.value key).toInt + step.toInt) with
      | none => (.error (.script "increment or decrement would overflow"), store)
      | some count =>
        let (time?, clock) := ServerClock.read store.clock
        let store : MemoryStore τ := ⟨store.counters.insert key count, clock⟩
        match time? with
        | none => (.error (.script "clock is before the unix epoch"), store)
        | some time => (.ok (reply time count), store)
  | _, _ => (.error (.script "wrong number of keys or arguments"), store)

/-- Runs a script: only the increment script is known. -/
def run [ServerClock τ] (call : Call) (store : MemoryStore τ) :
    Except Fault (List ReplyValue) × MemoryStore τ :=
  if call.script = incrementScript then store.increment call.keys call.args
  else (.error (.script "unknown script"), store)

instance [ServerClock τ] : Store (MemoryStore τ) := ⟨run⟩

end MemoryStore

/-! ## The replayed store -/

/-- A store that answers prepared replies in order, and fails when none is left. -/
structure ReplayedStore where
  /-- The replies to come. -/
  replies : List (Except Fault (List ReplyValue))
  /-- The calls made so far, in order. -/
  calls : List Call

namespace ReplayedStore

/-- Answers a call with the next reply. -/
def run (call : Call) (store : ReplayedStore) :
    Except Fault (List ReplyValue) × ReplayedStore :=
  (store.replies.headD (.error (.connection "exhausted")),
    ⟨store.replies.tail, store.calls ++ [call]⟩)

instance : Store ReplayedStore := ⟨run⟩

end ReplayedStore

end IdMint.Counter
