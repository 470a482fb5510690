import IdMint.Generator

/-! # Registries

A registry holds one generator for each location that was ever asked for, so that all who ask for a
location draw from the same generator. Getting a generator takes two steps, a lookup and an insertion
that happens only if the location is still absent; whoever comes between them does no harm. -/

namespace IdMint

/-- A location: a datacenter and a machine in it, both of five bits. -/
structure Location where
  datacenter : UInt64
  machine : UInt64
  datacenter_le : datacenter ≤ IdField.datacenter.greatest
  machine_le : machine ≤ IdField.machine.greatest
  deriving DecidableEq

namespace Location

/-- The location of two numbers; the first one that is too large is refused. -/
def ofNumbers (datacenter machine : UInt64) : Outcome Location :=
  if hd : datacenter ≤ IdField.datacenter.greatest then
    if hm : machine ≤ IdField.machine.greatest then .ok ⟨datacenter, machine, hd, hm⟩
    else .error (.invalidArgument (.fieldTooLarge .machine machine IdField.machine.greatest))
  else .error (.invalidArgument (.fieldTooLarge .datacenter datacenter IdField.datacenter.greatest))

/-- The generator of a location before it has issued anything. -/
def freshGenerator (l : Location) : Generator := ⟨.pack 0 l.datacenter l.machine 0⟩

/-- The fresh generator of a location is the one that is made from its numbers. -/
theorem new_eq_freshGenerator (l : Location) :
    Generator.new l.datacenter l.machine = .ok l.freshGenerator := by
  simp [Generator.new, Generator.ofFields, PackedId.ofFields, PackedId.checkField,
    UInt64.not_lt.mpr l.datacenter_le, UInt64.not_lt.mpr l.machine_le, freshGenerator, bind,
    Except.bind, pure, Except.pure, Except.map]

end Location

/-- The generators in the order of their creation, each with its location. -/
structure Registry where
  entries : List (Location × Generator)
  deriving DecidableEq

namespace Registry

/-- The registry without generators. -/
def empty : Registry := ⟨[]⟩

instance : Inhabited Registry := ⟨empty⟩

/-- The number of generators created so far. -/
def size (r : Registry) : Nat := r.entries.length

/-- Whether no generator has been created so far. -/
def isEmpty (r : Registry) : Bool := r.entries.isEmpty

/-- The number of a location's generator in the order of creation, if it has one. -/
def lookUp (r : Registry) (l : Location) : Option Nat := r.entries.findIdx? (·.1 = l)

/-- Creates the generator of a location unless there is one; its number, and the registry then. -/
def insertIfAbsent (r : Registry) (l : Location) : Nat × Registry :=
  match r.lookUp l with
  | some number => (number, r)
  | none => (r.size, ⟨r.entries ++ [(l, l.freshGenerator)]⟩)

/-- The number of a location's generator, which is created on first use, and the registry then. -/
def getGenerator (r : Registry) (datacenter machine : UInt64) : Outcome (Nat × Registry) :=
  match Location.ofNumbers datacenter machine with
  | .error cause => .error cause
  | .ok l =>
    match r.lookUp l with
    | some number => .ok (number, r)
    | none => .ok (r.insertIfAbsent l)

/-- The generator of a number. -/
def generator? (r : Registry) (number : Nat) : Option Generator := r.entries[number]?.map (·.2)

/-- Puts a generator in place of the one of a number. -/
def put (r : Registry) (number : Nat) (g : Generator) : Registry :=
  ⟨r.entries.modify number fun (l, _) => (l, g)⟩

/-- What is computed with a registry and a clock. -/
abbrev Drawing (σ : Type) : Type → Type := StateT (Registry × σ) Option

/-- Draws from the generator of a location, which is created on first use. -/
def drawFrom (datacenter machine : UInt64) (draw : Generator.Drawing σ (Outcome α)) :
    Drawing σ (Outcome α) := fun (r, clock) =>
  match r.getGenerator datacenter machine with
  | .error cause => some (.error cause, r, clock)
  | .ok (number, r) =>
    match r.generator? number with
    | none => none
    | some g => (draw (g, clock)).map fun (result, g, clock) => (result, r.put number g, clock)

end Registry

end IdMint
