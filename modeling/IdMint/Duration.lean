import IdMint.Text.Decimal

/-! # Durations

A span of time in whole nanoseconds. The greatest span is `2 ^ 64` seconds less one nanosecond, and a
product that would exceed it stops there. -/

namespace IdMint

/-- A span of time, in nanoseconds. -/
structure Duration where
  /-- The nanoseconds of the span. -/
  nanos : Nat
  deriving DecidableEq, Inhabited, Repr

namespace Duration

/-- The greatest span: one nanosecond less than `2 ^ 64` seconds. -/
def greatest : Duration := ⟨2 ^ 64 * 10 ^ 9 - 1⟩

/-- The span without length. -/
def zero : Duration := ⟨0⟩

/-- A span of whole milliseconds. -/
def ofMillis (ms : Nat) : Duration := ⟨ms * 10 ^ 6⟩

/-- A span of seconds and nanoseconds. -/
def ofParts (secs nanos : Nat) : Duration := ⟨secs * 10 ^ 9 + nanos⟩

@[simp] theorem nanos_ofMillis (ms : Nat) : (ofMillis ms).nanos = ms * 10 ^ 6 := rfl

@[simp] theorem nanos_ofParts (secs nanos : Nat) :
    (ofParts secs nanos).nanos = secs * 10 ^ 9 + nanos := rfl

/-- The whole milliseconds of a span, the rest dropped. -/
def millis (d : Duration) : Nat := d.nanos / 10 ^ 6

/-- The least number of milliseconds that is not shorter than the span. -/
def millisCeil (d : Duration) : Nat := (d.nanos + 999999) / 10 ^ 6

instance : LE Duration := ⟨fun a b => a.nanos ≤ b.nanos⟩
instance : LT Duration := ⟨fun a b => a.nanos < b.nanos⟩
instance (a b : Duration) : Decidable (a ≤ b) := inferInstanceAs (Decidable (a.nanos ≤ b.nanos))
instance (a b : Duration) : Decidable (a < b) := inferInstanceAs (Decidable (a.nanos < b.nanos))

theorem le_def {a b : Duration} : a ≤ b ↔ a.nanos ≤ b.nanos := Iff.rfl

theorem lt_def {a b : Duration} : a < b ↔ a.nanos < b.nanos := Iff.rfl

/-- The shorter of two spans. -/
protected def min (a b : Duration) : Duration := if a ≤ b then a else b

/-- A multiple of a span, or the greatest span where the multiple would exceed it. -/
def scale (d : Duration) (factor : Nat) : Duration := Duration.min ⟨d.nanos * factor⟩ greatest

/-- Digits behind the point: the `places` digits of `fraction` without the zeros at their end. -/
def fractionText (places fraction : Nat) : String :=
  let digits := ((Decimal.prepend places fraction []).reverse.dropWhile (· = '0')).reverse
  if digits.isEmpty then "" else "." ++ String.ofList digits

/-- A span counted in units of `10 ^ places` nanoseconds, followed by the unit. -/
def inUnits (d : Duration) (places : Nat) (unit : String) : String :=
  toString (d.nanos / 10 ^ places) ++ fractionText places (d.nanos % 10 ^ places) ++ unit

/-- The text of a span: in the greatest of seconds, milli-, micro- and nanoseconds that it reaches,
with as many digits behind the point as it needs. -/
def text (d : Duration) : String :=
  if 10 ^ 9 ≤ d.nanos then d.inUnits 9 "s"
  else if 10 ^ 6 ≤ d.nanos then d.inUnits 6 "ms"
  else if 10 ^ 3 ≤ d.nanos then d.inUnits 3 "µs"
  else d.inUnits 0 "ns"

example : zero.text = "0ns" := by cbv
example : (ofParts 0 1500).text = "1.5µs" := by cbv
example : (ofParts 100 10000000).text = "100.01s" := by cbv

end Duration

end IdMint
