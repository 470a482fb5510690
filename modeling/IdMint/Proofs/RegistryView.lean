import IdMint.Registry
import Mathlib.Logic.Function.Basic

/-! # The generators of a registry

A registry stands for one generator at every location: the one that is kept for it, or the fresh one
that its first use creates. Drawing from a location changes the generator of that location and of no
other one. -/

namespace IdMint

namespace Location

/-- The numbers of a location are accepted, and make up the location. -/
theorem ofNumbers_eq_ok_iff {datacenter machine : UInt64} {l : Location} :
    ofNumbers datacenter machine = .ok l ↔ l.datacenter = datacenter ∧ l.machine = machine := by
  unfold ofNumbers
  constructor
  · intro h
    split at h
    · split at h
      · cases h
        exact ⟨rfl, rfl⟩
      · cases h
    · cases h
  · rintro ⟨rfl, rfl⟩
    rw [dif_pos l.datacenter_le, dif_pos l.machine_le]

/-- The numbers of a location are accepted. -/
@[simp] theorem ofNumbers_self (l : Location) : ofNumbers l.datacenter l.machine = .ok l :=
  ofNumbers_eq_ok_iff.mpr ⟨rfl, rfl⟩

/-- Two locations of the same numbers are the same. -/
theorem ext_numbers {l k : Location} (hd : l.datacenter = k.datacenter)
    (hm : l.machine = k.machine) : l = k := by
  cases l
  cases k
  cases hd
  cases hm
  rfl

end Location

namespace Registry

/-- The generator that a location draws from: the one that is kept for it, or the fresh one. -/
def generatorOf (r : Registry) (l : Location) : Generator :=
  match r.lookUp l with
  | some number => (r.generator? number).getD l.freshGenerator
  | none => l.freshGenerator

/-- Before its first use every generator is fresh. -/
theorem generatorOf_empty : empty.generatorOf = Location.freshGenerator := rfl

/-- The entry that a lookup finds is one of the location. -/
theorem exists_of_lookUp {r : Registry} {l : Location} {number : Nat}
    (h : r.lookUp l = some number) : ∃ g, r.entries[number]? = some (l, g) := by
  obtain ⟨hlt, hkey, -⟩ := List.findIdx?_eq_some_iff_getElem.mp h
  refine ⟨r.entries[number].2, ?_⟩
  rw [List.getElem?_eq_getElem hlt, ← of_decide_eq_true hkey]

/-! ## Insertion -/

/-- An insertion leaves a location with a generator. -/
theorem lookUp_insertIfAbsent_self (r : Registry) (l : Location) :
    (r.insertIfAbsent l).2.lookUp l = some (r.insertIfAbsent l).1 := by
  unfold insertIfAbsent
  split
  · assumption
  · rename_i h
    have hnone : r.entries.findIdx? (·.1 = l) = none := h
    simp [lookUp, List.findIdx?_append, hnone, List.findIdx?_cons, size]

/-- An insertion changes nothing at any location: where it creates a generator, it is fresh. -/
theorem generatorOf_insertIfAbsent (r : Registry) (l : Location) :
    (r.insertIfAbsent l).2.generatorOf = r.generatorOf := by
  cases h : r.lookUp l with
  | some number => rw [insertIfAbsent, h]
  | none =>
    funext k
    have hl : r.entries.findIdx? (·.1 = l) = none := h
    have hinsert : (r.insertIfAbsent l).2 = ⟨r.entries ++ [(l, l.freshGenerator)]⟩ := by
      rw [insertIfAbsent, h]
    by_cases hk : k = l
    · -- the location itself now has a generator that is kept, and that is the fresh one
      subst hk
      have hself := lookUp_insertIfAbsent_self r k
      rw [generatorOf, hself, generatorOf, h, hinsert]
      simp [insertIfAbsent, h, generator?, size]
    · -- the entry stands behind all others, so lookups of other locations do not meet it
      have hlook : (r.insertIfAbsent l).2.lookUp k = r.lookUp k := by
        rw [hinsert]
        simp [lookUp, List.findIdx?_append, List.findIdx?_cons, Ne.symm hk]
      rw [generatorOf, hlook, generatorOf, hinsert]
      cases hr : r.lookUp k with
      | none => rfl
      | some number =>
        obtain ⟨g, hg⟩ := exists_of_lookUp hr
        have hlt : number < r.entries.length := (List.getElem?_eq_some_iff.mp hg).1
        simp [generator?, List.getElem?_append_left hlt]

/-! ## Replacing a generator -/

/-- Replacing the generator of an entry leaves the locations of all entries as they are. -/
theorem findIdx?_modify (entries : List (Location × Generator)) (number : Nat) (g : Generator)
    (l : Location) :
    (entries.modify number fun (k, _) => (k, g)).findIdx? (·.1 = l)
      = entries.findIdx? (·.1 = l) := by
  induction entries generalizing number with
  | nil => rw [List.modify_nil]
  | cons e es ih =>
    cases number with
    | zero => rfl
    | succ number => simp only [List.modify_succ_cons, List.findIdx?_cons, ih]

/-- Replacing a generator leaves every location where it is. -/
@[simp] theorem lookUp_put (r : Registry) (number : Nat) (g : Generator) (l : Location) :
    (r.put number g).lookUp l = r.lookUp l :=
  findIdx?_modify r.entries number g l

/-- Replacing the generator of a location changes this one only. -/
theorem generatorOf_put {r : Registry} {l : Location} {number : Nat}
    (h : r.lookUp l = some number) (g : Generator) :
    (r.put number g).generatorOf = Function.update r.generatorOf l g := by
  funext k
  obtain ⟨old, hold⟩ := exists_of_lookUp h
  by_cases hk : k = l
  · subst hk
    rw [Function.update_self, generatorOf, lookUp_put, h]
    simp [generator?, put, List.getElem?_modify_eq, hold]
  · rw [Function.update_of_ne hk, generatorOf, lookUp_put, generatorOf]
    cases hr : r.lookUp k with
    | none => rfl
    | some other =>
      obtain ⟨own, hown⟩ := exists_of_lookUp hr
      -- two locations do not share an entry
      have hne : number ≠ other := by
        rintro rfl
        rw [hold] at hown
        exact hk (congrArg Prod.fst (Option.some.inj hown)).symm
      simp [generator?, put, hne]

/-! ## Drawing -/

/-- Getting the generator of a location gives the number under which it is kept then. -/
theorem getGenerator_location (r : Registry) (l : Location) :
    r.getGenerator l.datacenter l.machine = .ok (r.insertIfAbsent l) := by
  cases h : r.lookUp l with
  | none => simp only [getGenerator, Location.ofNumbers_self, h]
  | some number => simp only [getGenerator, Location.ofNumbers_self, h, insertIfAbsent]

/-- The number that an insertion gives is that of the location's generator. -/
theorem generator?_insertIfAbsent (r : Registry) (l : Location) :
    (r.insertIfAbsent l).2.generator? (r.insertIfAbsent l).1 = some (r.generatorOf l) := by
  have hlook := lookUp_insertIfAbsent_self r l
  obtain ⟨g, hg⟩ := exists_of_lookUp hlook
  rw [← congrFun (generatorOf_insertIfAbsent r l) l, generatorOf, hlook]
  simp [generator?, hg]

/-- A number under which no generator was kept before is that of a fresh one. -/
theorem eq_freshGenerator_of_insertIfAbsent {r r' : Registry} {l : Location} {number : Nat}
    {g : Generator} (hinsert : r.insertIfAbsent l = (number, r'))
    (habsent : r.generator? number = none) (hg : r'.generator? number = some g) :
    g = l.freshGenerator := by
  have hkept := generator?_insertIfAbsent r l
  rw [hinsert, hg, Option.some.injEq] at hkept
  rw [hkept, generatorOf]
  cases hl : r.lookUp l with
  | none => rfl
  | some old =>
    rw [insertIfAbsent, hl] at hinsert
    cases hinsert
    simp only [habsent, Option.getD_none]

variable {σ α : Type}

/-- What a drawing at two numbers comes to: a refusal of the numbers that changes nothing, or a
drawing from the generator of the location, which changes no other one. -/
theorem drawFrom_eq_some {datacenter machine : UInt64}
    {draw : Generator.Drawing σ (Outcome α)} {r r' : Registry} {clock clock' : σ}
    {result : Outcome α}
    (h : drawFrom datacenter machine draw (r, clock) = some (result, r', clock')) :
    (∃ cause, Location.ofNumbers datacenter machine = .error cause ∧ result = .error cause
      ∧ r' = r ∧ clock' = clock)
    ∨ ∃ l g, Location.ofNumbers datacenter machine = .ok l
      ∧ draw (r.generatorOf l, clock) = some (result, g, clock')
      ∧ r'.generatorOf = Function.update r.generatorOf l g := by
  cases hl : Location.ofNumbers datacenter machine with
  | error cause =>
    left
    simp only [drawFrom, getGenerator, hl, Option.some.injEq, Prod.mk.injEq] at h
    exact ⟨cause, rfl, h.1.symm, h.2.1.symm, h.2.2.symm⟩
  | ok l =>
    right
    obtain ⟨rfl, rfl⟩ := Location.ofNumbers_eq_ok_iff.mp hl
    simp only [drawFrom, getGenerator_location, generator?_insertIfAbsent,
      Option.map_eq_some_iff, Prod.mk.injEq] at h
    obtain ⟨⟨result₁, g, clock₁⟩, hdraw, rfl, rfl, rfl⟩ := h
    refine ⟨l, g, rfl, hdraw, ?_⟩
    rw [generatorOf_put (lookUp_insertIfAbsent_self r l), generatorOf_insertIfAbsent]

end Registry

/-! ## Generators that have just been made -/

namespace Generator

/-- A generator that has just been made for two numbers: on its own, or by a registry that kept none
under its number before. -/
inductive Made (datacenter machine : UInt64) : Generator → Prop
  | alone {g : Generator} (h : new datacenter machine = .ok g) : Made datacenter machine g
  | kept {r r' : Registry} {number : Nat} {g : Generator}
      (hget : r.getGenerator datacenter machine = .ok (number, r'))
      (habsent : r.generator? number = none) (hg : r'.generator? number = some g) :
      Made datacenter machine g

/-- A generator is made on its own only for the numbers of a location. -/
theorem exists_location_of_new {datacenter machine : UInt64} {g : Generator}
    (h : new datacenter machine = .ok g) :
    ∃ l : Location, Location.ofNumbers datacenter machine = .ok l ∧ g = l.freshGenerator := by
  by_cases hd : datacenter ≤ IdField.datacenter.greatest
  · by_cases hm : machine ≤ IdField.machine.greatest
    · have hnew := Location.new_eq_freshGenerator ⟨datacenter, machine, hd, hm⟩
      refine ⟨⟨datacenter, machine, hd, hm⟩, Location.ofNumbers_eq_ok_iff.mpr ⟨rfl, rfl⟩, ?_⟩
      exact Except.ok.inj (h.symm.trans hnew)
    · simp [new, ofFields, PackedId.ofFields, PackedId.checkField, UInt64.not_lt.mpr hd,
        UInt64.not_le.mp hm, bind, Except.bind, Except.map] at h
  · simp [new, ofFields, PackedId.ofFields, PackedId.checkField, UInt64.not_le.mp hd, bind,
      Except.bind, Except.map] at h

/-- Whichever way a generator is made, it is the fresh one of a location. -/
theorem Made.exists_location {datacenter machine : UInt64} {g : Generator}
    (h : Made datacenter machine g) :
    ∃ l : Location, Location.ofNumbers datacenter machine = .ok l ∧ g = l.freshGenerator := by
  cases h with
  | alone h => exact exists_location_of_new h
  | @kept r r' number g hget habsent hg =>
    cases hl : Location.ofNumbers datacenter machine with
    | error cause =>
      rw [Registry.getGenerator, hl] at hget
      cases hget
    | ok l =>
      obtain ⟨rfl, rfl⟩ := Location.ofNumbers_eq_ok_iff.mp hl
      rw [Registry.getGenerator_location] at hget
      exact ⟨l, rfl, Registry.eq_freshGenerator_of_insertIfAbsent (Except.ok.inj hget) habsent hg⟩

end Generator

end IdMint
