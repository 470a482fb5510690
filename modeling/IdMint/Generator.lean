import IdMint.Batch
import IdMint.Clock
import IdMint.PackedId

/-! # Generators

A generator issues identifiers for one location. It keeps only the last identifier that it issued,
which carries the last timestamp and the last sequence number. A poll reads the clock once: in the
same millisecond the sequence number goes up, in a later one it starts again at zero, and a reading
that lies before the last timestamp is refused. -/

namespace IdMint

universe u

/-- The result of one attempt to issue an identifier. -/
inductive Poll
  /-- A new identifier. -/
  | ready (id : PackedId)
  /-- The sequence numbers of the present millisecond are used up; worth another attempt after so
  many milliseconds. -/
  | pending (wait : UInt64)
  deriving DecidableEq, Inhabited, Repr

/-- A generator of identifiers. -/
structure Generator where
  /-- The last identifier issued, or the one to start from. -/
  last : PackedId
  deriving DecidableEq, Inhabited, Repr

namespace Generator

/-- A generator that goes on from the given fields. -/
def ofFields (timestamp datacenter machine sequence : UInt64) : Outcome Generator :=
  (PackedId.ofFields timestamp datacenter machine sequence).map Generator.mk

/-- A new generator for a location: its last timestamp and sequence number are zero. -/
def new (datacenter machine : UInt64) : Outcome Generator := ofFields 0 datacenter machine 0

/-- One attempt to issue an identifier while the clock reads `now`. -/
def poll (g : Generator) (now : UInt64) : Outcome Poll × Generator :=
  if now = g.last.timestamp then
    if g.last.hasRoom then (.ok (.ready g.last.increment), ⟨g.last.increment⟩)
    else (.ok (.pending 1), g)
  else if g.last.timestamp < now then
    if IdField.timestamp.greatest < now then
      (.error (.invalidArgument (.timestampOutOfRange now)), g)
    else (.ok (.ready (g.last.rollover now)), ⟨g.last.rollover now⟩)
  else (.error (.clockMovedBackwards g.last.timestamp now), g)

/-- What is computed with a generator and a clock. It comes to nothing where the clock stands still
for longer than the caller is ready to wait, and where an allocation is impossible. -/
abbrev Drawing (σ : Type) : Type → Type := StateT (Generator × σ) Option

variable {σ : Type} [TimeSource σ]

/-- One attempt to issue an identifier at the clock's next reading. -/
def attempt : Drawing σ (Outcome Poll) := fun (g, clock) =>
  let (now, clock) := TimeSource.read clock
  let (result, g) := g.poll now
  some (result, g, clock)

/-- The next identifier, by at most `patience` attempts: a pending result calls for another one. -/
def next : (patience : Nat) → Drawing σ (Outcome PackedId)
  | 0 => failure
  | patience + 1 => do
    match ← attempt with
    | .ok (.ready id) => return .ok id
    | .ok (.pending _) => next patience
    | .error cause => return .error cause

/-- The next identifier in decimal. -/
def nextText (patience : Nat) : Drawing σ (Outcome String) := do
  return (← next patience).map PackedId.text

/-- The next `count` identifiers in decimal. More than can be allocated are not even begun. -/
def nextTexts (patience : Nat) (count : UInt64) : Drawing σ (Outcome (List String)) :=
  match Batch.Size.ofCount? count with
  | none => failure
  | some size => Batch.collect (nextText patience) size

theorem nextTexts_of_le {count : UInt64} (fits : count.toNat ≤ Batch.capacity) (patience : Nat) :
    (nextTexts patience count : Drawing σ _) = Batch.collect (nextText patience) ⟨count.toNat, fits⟩ := by
  rw [nextTexts, Batch.Size.ofCount?, dif_pos fits]

theorem nextTexts_of_lt {count : UInt64} (h : Batch.capacity < count.toNat) (patience : Nat) :
    (nextTexts patience count : Drawing σ _) = failure := by
  rw [nextTexts, Batch.Size.ofCount?, dif_neg (Nat.not_le.mpr h)]

end Generator

end IdMint
