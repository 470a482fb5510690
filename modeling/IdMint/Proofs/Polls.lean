import IdMint.Proofs.Batches
import IdMint.Proofs.PackedOrder
import IdMint.Proofs.RegistryView

/-! # Polls

Whatever is drawn from the generators of a registry is drawn poll by poll, each at the clock's next
reading. What a run of polls issues at one location is ascending, and every identifier shows the
location and the reading of the poll that issued it: the invariant is that each generator's last
identifier belongs to its location. -/

namespace IdMint

/-! ## One poll -/

namespace Generator

/-- A poll either issues a successor of the last identifier or leaves the generator as it is. -/
theorem poll_cases {g g' : Generator} {now : UInt64} {result : Outcome Poll}
    (hg : g.last.TopBitClear) (h : g.poll now = (result, g')) :
    (result = .ok (.ready g'.last) ∧ PackedId.Succeeds now g.last g'.last)
    ∨ (g' = g ∧ (result = .ok (.pending 1)
        ∨ result = .error (.invalidArgument (.timestampOutOfRange now))
        ∨ result = .error (.clockMovedBackwards g.last.timestamp now))) := by
  unfold poll at h
  split at h
  · rename_i same
    split at h
    · rename_i room
      cases h
      exact .inl ⟨rfl, same ▸ PackedId.succeeds_increment hg room⟩
    · cases h
      exact .inr ⟨rfl, .inl rfl⟩
  · split at h
    · rename_i later
      split at h
      · cases h
        exact .inr ⟨rfl, .inr (.inl rfl)⟩
      · rename_i fits
        cases h
        exact .inl ⟨rfl, PackedId.succeeds_rollover hg later (UInt64.not_lt.mp fits)⟩
    · cases h
      exact .inr ⟨rfl, .inr (.inr rfl)⟩

end Generator

/-- The generators of all locations. -/
abbrev Generators : Type := Location → Generator

namespace Generators

/-- Every generator goes on from an identifier of its own location. -/
def Placed (gens : Generators) : Prop :=
  ∀ l, (gens l).last.TopBitClear ∧ (gens l).last.datacenter = l.datacenter
    ∧ (gens l).last.machine = l.machine

/-- Fresh generators go on from identifiers of their locations. -/
theorem placed_fresh : Placed Location.freshGenerator := by
  intro l
  have hd : l.datacenter.toNat ≤ 31 := UInt64.le_iff_toNat_le.mp l.datacenter_le
  have hm : l.machine.toNat ≤ 31 := UInt64.le_iff_toNat_le.mp l.machine_le
  refine ⟨PackedId.topBitClear_pack _ _ _ _, ?_, ?_⟩
  · rw [← UInt64.toNat_inj, Location.freshGenerator, PackedId.toNat_datacenter_pack]
    omega
  · rw [← UInt64.toNat_inj, Location.freshGenerator, PackedId.toNat_machine_pack]
    omega

/-- A poll leaves every generator with an identifier of its own location. -/
theorem Placed.poll {gens : Generators} (hgens : gens.Placed) {l : Location} {now : UInt64}
    {result : Outcome Poll} {g : Generator} (h : (gens l).poll now = (result, g)) :
    Placed (Function.update gens l g) := by
  intro k
  by_cases hk : k = l
  · subst hk
    rw [Function.update_self]
    obtain ⟨hclear, hd, hm⟩ := hgens k
    obtain ⟨-, hnext⟩ | ⟨rfl, -⟩ := Generator.poll_cases hclear h
    · exact ⟨hnext.topBitClear, hnext.datacenter_eq.trans hd, hnext.machine_eq.trans hm⟩
    · exact ⟨hclear, hd, hm⟩
  · rw [Function.update_of_ne hk]
    exact hgens k

end Generators

/-! ## Runs of polls -/

/-- A poll as the log of a run shows it. -/
structure Polled where
  /-- The location whose generator was polled. -/
  location : Location
  /-- What the clock read. -/
  reading : UInt64
  /-- What came of it. -/
  result : Outcome Poll

/-- The identifier that a poll issued, if it issued one. -/
def Polled.issued? (p : Polled) : Option PackedId :=
  match p.result with
  | .ok (.ready id) => some id
  | _ => none

theorem Polled.issued?_eq_some_iff {p : Polled} {id : PackedId} :
    p.issued? = some id ↔ p.result = .ok (.ready id) := by
  unfold issued?
  split
  · rename_i h
    rw [h, Option.some.injEq, Except.ok.injEq, Poll.ready.injEq]
  · rename_i h
    exact ⟨fun hnone => absurd hnone (by simp), fun heq => absurd heq (h id)⟩

variable {σ : Type} [TimeSource σ]

/-- Polls one after the other, each at the clock's next reading. -/
inductive Polls : Generators → σ → List Polled → Generators → σ → Prop
  | nil (gens : Generators) (clock : σ) : Polls gens clock [] gens clock
  | cons {gens gens' : Generators} {clock clock₁ clock' : σ} {p : Polled} {g : Generator}
      {ps : List Polled} (hread : TimeSource.read clock = (p.reading, clock₁))
      (hpoll : (gens p.location).poll p.reading = (p.result, g))
      (rest : Polls (Function.update gens p.location g) clock₁ ps gens' clock') :
      Polls gens clock (p :: ps) gens' clock'

namespace Polls

variable {gens gens' gens'' : Generators} {clock clock' clock'' : σ} {ps qs : List Polled}

/-- Runs of polls follow each other. -/
theorem append (h : Polls gens clock ps gens' clock') (h' : Polls gens' clock' qs gens'' clock'') :
    Polls gens clock (ps ++ qs) gens'' clock'' := by
  induction h with
  | nil => exact h'
  | cons hread hpoll _ ih => exact .cons hread hpoll (ih h')

/-- The identifier `id` comes after all that was issued at the location of the poll `p` before, and
shows the location and the reading of the poll. -/
structure IssuedAfter (gens : Generators) (p : Polled) (id : PackedId) : Prop where
  raw_lt : (gens p.location).last.raw < id.raw
  topBitClear : id.TopBitClear
  timestamp_eq : id.timestamp = p.reading
  datacenter_eq : id.datacenter = p.location.datacenter
  machine_eq : id.machine = p.location.machine

/-- A poll that issues an identifier issues the generator's last one. -/
theorem issuedAfter_of_poll (hgens : gens.Placed) {p : Polled} {g : Generator}
    (hpoll : (gens p.location).poll p.reading = (p.result, g)) {id : PackedId}
    (hid : p.issued? = some id) : g.last = id ∧ IssuedAfter gens p id := by
  obtain ⟨hclear, hd, hm⟩ := hgens p.location
  rw [Polled.issued?_eq_some_iff] at hid
  obtain ⟨hready, hnext⟩ | ⟨-, hidle⟩ := Generator.poll_cases hclear hpoll
  · rw [hid, Except.ok.injEq, Poll.ready.injEq] at hready
    rw [← hready] at hnext
    exact ⟨hready.symm, hnext.raw_lt, hnext.topBitClear, hnext.timestamp_eq,
      hnext.datacenter_eq.trans hd, hnext.machine_eq.trans hm⟩
  · simp [hid] at hidle

/-- A poll does not take a generator back. -/
theorem last_le_of_poll (hgens : gens.Placed) {l : Location} {now : UInt64}
    {result : Outcome Poll} {g : Generator} (hpoll : (gens l).poll now = (result, g)) :
    (gens l).last.raw ≤ g.last.raw := by
  obtain ⟨-, hnext⟩ | ⟨rfl, -⟩ := Generator.poll_cases (hgens l).1 hpoll
  · exact UInt64.le_of_lt hnext.raw_lt
  · exact UInt64.le_refl _

/-- Every identifier of a run comes after all that was issued at its location before the run, and
shows the location and the reading of its poll. -/
theorem issuedAfter (h : Polls gens clock ps gens' clock') (hgens : gens.Placed) {p : Polled}
    (hp : p ∈ ps) {id : PackedId} (hid : p.issued? = some id) : IssuedAfter gens p id := by
  -- polls in front of it take no generator back, and leave those of other locations alone
  induction h with
  | nil => exact absurd hp List.not_mem_nil
  | @cons gens _ _ _ _ q g _ _ hpoll _ ih =>
    rcases List.mem_cons.mp hp with rfl | hmem
    · exact (issuedAfter_of_poll hgens hpoll hid).2
    · have hafter := ih (hgens.poll hpoll) hmem
      refine { hafter with raw_lt := ?_ }
      have hlt := hafter.raw_lt
      by_cases hl : p.location = q.location
      · rw [hl, Function.update_self] at hlt
        rw [hl]
        exact UInt64.lt_of_le_of_lt (last_le_of_poll hgens hpoll) hlt
      · rwa [Function.update_of_ne hl] at hlt

/-- What an earlier poll of a run issues differs from what a later one issues, and is less where both
are of one location. -/
theorem pairwise (h : Polls gens clock ps gens' clock') (hgens : gens.Placed) :
    ps.Pairwise fun p q => ∀ a b, p.issued? = some a → q.issued? = some b →
      a ≠ b ∧ (p.location = q.location → a.raw < b.raw) := by
  induction h with
  | nil => exact .nil
  | @cons gens _ _ _ _ p g _ _ hpoll rest ih =>
    refine .cons (fun q hq a b ha hb => ?_) (ih (hgens.poll hpoll))
    obtain ⟨hlast, hfirst⟩ := issuedAfter_of_poll hgens hpoll ha
    have hlater := issuedAfter rest (hgens.poll hpoll) hq hb
    have hlt : p.location = q.location → a.raw < b.raw := by
      intro hl
      have hraw := hlater.raw_lt
      rwa [← hl, Function.update_self, hlast] at hraw
    refine ⟨?_, hlt⟩
    -- one identifier shows one location, and identifiers of one location are ascending
    rintro rfl
    have hsame : p.location = q.location := Location.ext_numbers
      (hfirst.datacenter_eq.symm.trans hlater.datacenter_eq)
      (hfirst.machine_eq.symm.trans hlater.machine_eq)
    exact UInt64.lt_irrefl _ (hlt hsame)

end Polls

end IdMint
