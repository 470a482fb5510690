import IdMint.Batch
import IdMint.CompositeKey
import IdMint.Counter.Store

/-! # Counter identifiers

Identifiers from a counter for each key that a shared store increments. One script call increments
the counter and reads the server's clock, so identifiers of one key differ as long as their counters
fit the width. -/

namespace IdMint

/-- Settings of counter identifiers. -/
structure CounterSettings where
  /-- What stands in front of every key. -/
  scope : String
  /-- The number of digits of the counter. -/
  length : UInt64
  /-- What is added to the counter for each identifier. -/
  step : UInt64
  deriving DecidableEq, Inhabited, Repr

/-- The settings where none are given. -/
def CounterSettings.standard : CounterSettings := ⟨"idforge", 8, 1⟩

namespace Counter

/-- The greatest step: the greatest signed 64-bit number. -/
def greatestStep : UInt64 := 0x7FFFFFFFFFFFFFFF

/-- Refuses a step of zero and one that is no signed 64-bit number. -/
def checkStep (step : UInt64) : Outcome Unit :=
  if step = 0 ∨ greatestStep < step then .error (.invalidArgument (.stepOutOfRange step))
  else .ok ()

/-- Refuses a width of zero. -/
def checkLength (length : UInt64) : Outcome Unit :=
  if length = 0 then .error (.invalidArgument .lengthZero) else .ok ()

/-- An issuer of counter identifiers, with settings that have been checked. -/
structure Issuer where
  settings : CounterSettings
  deriving DecidableEq, Inhabited, Repr

namespace Issuer

/-- Checks the settings: the scope, then the step, then the width. -/
def ofSettings (settings : CounterSettings) : Outcome Issuer := do
  if settings.scope.isEmpty then throw (.emptyKey "prefix")
  checkStep settings.step
  checkLength settings.length
  return ⟨settings⟩

end Issuer

/-- The identifier that a store's answer leads to. -/
def ofAnswer (answer : Except Fault (List ReplyValue)) (length : UInt64) : Outcome String :=
  match answer >>= readReply >>= (identifier · length.toNat) with
  | .ok id => .ok id
  | .error fault => .error (.store fault)

/-- The call by which a counter is incremented. -/
def incrementCall (key : String) (step : UInt64) : Call := ⟨incrementScript, [key], [toString step]⟩

/-- Refuses an empty key, a bad step and a bad width, in this order. -/
def checkCall (key : String) (step length : UInt64) : Outcome Unit := do
  CompositeKey.check key
  checkStep step
  checkLength length

variable {σ : Type} [Store σ]

/-- One identifier for a composite key. -/
def next (key : String) (step length : UInt64) : StateM σ (Outcome String) := fun store =>
  match checkCall key step length with
  | .error cause => (.error cause, store)
  | .ok () =>
    let (answer, store) := Store.run (incrementCall key step) store
    (ofAnswer answer length, store)

/-- Several identifiers for a composite key, by one script call each. -/
def nextMany (key : String) (step length count : UInt64) : StateM σ (Outcome (List String)) :=
  match Batch.accept count with
  | .error cause => pure (.error cause)
  | .ok size => Batch.collect (next key step length) size

namespace Issuer

/-- One identifier for a name and a key in the issuer's scope. -/
def nextFor (issuer : Issuer) (name key : String) (step length : UInt64) :
    StateM σ (Outcome String) :=
  match CompositeKey.ofParts issuer.settings.scope name key with
  | .error cause => pure (.error cause)
  | .ok composite => next composite.text step length

/-- One identifier for a name and a key, with the step and the width of the settings. -/
def nextConfigured (issuer : Issuer) (name key : String) : StateM σ (Outcome String) :=
  issuer.nextFor name key issuer.settings.step issuer.settings.length

/-- Several identifiers for a name and a key in the issuer's scope. -/
def nextManyFor (issuer : Issuer) (name key : String) (step length count : UInt64) :
    StateM σ (Outcome (List String)) :=
  match CompositeKey.ofParts issuer.settings.scope name key with
  | .error cause => pure (.error cause)
  | .ok composite => nextMany composite.text step length count

end Issuer

end Counter

end IdMint
