import IdMint.Registry

/-! # Local identifiers

Identifiers that need no shared service: a facade draws them from the generators of a registry, for
its own location or for any other one. Facades on one registry never issue the same identifier. -/

namespace IdMint

/-- Settings of local identifiers: the location that a facade draws for. -/
structure LocalSettings where
  /-- The datacenter, at most 31. -/
  datacenter : UInt64
  /-- The machine, at most 31. -/
  machine : UInt64
  deriving DecidableEq, Inhabited, Repr

/-- The settings where none are given. -/
def LocalSettings.standard : LocalSettings := ⟨0, 0⟩

/-- A facade over a registry. -/
structure LocalIds where
  /-- The location that the facade draws for unless another one is named. -/
  home : Location
  /-- The epoch of the registry's clock, in milliseconds since the Unix epoch. -/
  epoch : UInt64

namespace LocalIds

variable {σ : Type} [TimeSource σ]

/-- A facade over a registry with the given clock. -/
def ofSettings (settings : LocalSettings) (clock : σ) : Outcome LocalIds :=
  (Location.ofNumbers settings.datacenter settings.machine).map (⟨·, TimeSource.epoch clock⟩)

/-- One identifier for a location. -/
def nextFor (patience : Nat) (datacenter machine : UInt64) : Registry.Drawing σ (Outcome String) :=
  Registry.drawFrom datacenter machine (Generator.nextText patience)

/-- One identifier for the facade's own location. -/
def next (ids : LocalIds) (patience : Nat) : Registry.Drawing σ (Outcome String) :=
  nextFor patience ids.home.datacenter ids.home.machine

/-- Several identifiers for a location. -/
def nextManyFor (patience : Nat) (datacenter machine count : UInt64) :
    Registry.Drawing σ (Outcome (List String)) :=
  match Batch.checkCount count with
  | .error cause => pure (.error cause)
  | .ok () => Registry.drawFrom datacenter machine (Generator.nextTexts patience count)

/-- Several identifiers for the facade's own location. -/
def nextMany (ids : LocalIds) (patience : Nat) (count : UInt64) :
    Registry.Drawing σ (Outcome (List String)) :=
  nextManyFor patience ids.home.datacenter ids.home.machine count

/-- The fields of an identifier of the registry. -/
def decode (ids : LocalIds) (raw : UInt64) : DecodedId := IdMint.decode ids.epoch raw

end LocalIds

end IdMint
