import IdMint.Calendar
import IdMint.Counter.Fault
import IdMint.Text.Fitted
import IdMint.Text.Quoted

/-! # Replies of the counter script

The script increments a counter and reads the server's clock. Its reply has three elements, the
seconds and microseconds of the clock and the counter's new value; servers send numbers as such or as
text. An identifier is the server's time in digits followed by the counter, cut or padded to a width. -/

namespace IdMint.Counter

/-- The script that adds a step to a counter and reads the server's clock. -/
def incrementScript : String :=
  "local count = tonumber(redis.call('incrby', KEYS[1], ARGV[1]))\n"
    ++ "local now = redis.call('time')\n" ++ "return \x7bnow[1], now[2], count\x7d"

/-- An element of a reply. -/
inductive ReplyValue
  /-- A number. -/
  | int (value : Int64)
  /-- A text. -/
  | bulk (text : String)
  deriving DecidableEq, Inhabited

namespace ReplyValue

/-- The number that an element stands for, if it does. -/
def int? : ReplyValue → Option Int64
  | int value => some value
  | bulk text => Decimal.int64? text

/-- An element as error messages show it. -/
def shown : ReplyValue → String
  | int value => "Int(" ++ toString value ++ ")"
  | bulk text => "Bulk(" ++ Text.quote text ++ ")"

end ReplyValue

/-- What a reply tells: the server's time in milliseconds since the Unix epoch, and the counter. -/
structure Reading where
  millis : Int
  count : UInt64
  deriving DecidableEq, Inhabited, Repr

/-- The number of a named element of a reply. -/
def element (value : ReplyValue) (name : String) : Except Fault Int64 :=
  match value.int? with
  | some n => .ok n
  | none => .error (.malformedReply (name ++ " is not an integer: " ++ value.shown))

/-- A time in milliseconds; the microseconds are cut to whole milliseconds toward zero. Nothing where
the seconds or the sum do not fit 64 bits with a sign. -/
def millisOf? (seconds micros : Int64) : Option Int64 := do
  let whole ← Decimal.toInt64? (seconds.toInt * 1000)
  Decimal.toInt64? (whole.toInt + micros.toInt.tdiv 1000)

/-- What a reply tells, or what is wrong with it. -/
def readReply : List ReplyValue → Except Fault Reading
  | [seconds, micros, counter] => do
    let s ← element seconds "seconds"
    let u ← element micros "microseconds"
    let n ← element counter "counter"
    match millisOf? s u with
    | none => .error (.malformedReply ("time out of range: " ++ toString s ++ "s"))
    | some millis =>
      if n < 0 then .error (.malformedReply ("negative counter " ++ toString n))
      else .ok ⟨millis.toInt, n.toUInt64⟩
  | values =>
    .error (.malformedReply ("expected 3 elements, got " ++ toString values.length))

/-- The counter part of an identifier: the rightmost digits of the counter, or zeros in front of it,
so that there are exactly `length` digits. -/
def suffix (count : UInt64) (length : Nat) : String := Decimal.fitted length count.toNat

/-- The identifier for a reading: the time in digits, and the counter in `length` digits. -/
def identifier (reading : Reading) (length : Nat) : Except Fault String :=
  match Calendar.moment? reading.millis with
  | some moment => .ok (moment.text ++ suffix reading.count length)
  | none => .error (.malformedReply ("time out of range: " ++ toString reading.millis ++ "ms"))

end IdMint.Counter
