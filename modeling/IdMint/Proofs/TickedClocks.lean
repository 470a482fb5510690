import IdMint.Proofs.Polls

/-! # Clocks that a ticker moves

All copies of a monotonic clock show what one ticker stores. On such a clock three things take turns in
any order: iterations of the ticker, readings, and polls of generators that were made on the clock. A
poll holds its generator from the moment at which it reads the clock until it has made something of the
reading, while everything else goes on.

Where time never goes back and no sleep ends early, an iteration finds its tick due, so the ticker stores
ever greater times and no reading lies before an earlier one. No generator finds that the clock moved
backwards: the invariant is `Guarded.Behind`, by which neither what a generator has issued nor what a
poll has read lies after the present reading. -/

namespace IdMint

/-! ## The ticker -/

namespace Ticker

/-- An iteration of the ticker that stores the time `elapsed` since its start, where time never goes
back and no sleep ends early: it looks at the time, sleeps until its tick is due, and looks again. -/
inductive Iterates (t : Ticker) (previous elapsed : Duration) : Prop
  | intro {began woke : Duration} (hbegan : previous ≤ began)
      (hwoke : began.nanos + (t.sleep began).nanos ≤ woke.nanos) (helapsed : woke ≤ elapsed)

variable {t : Ticker} {previous elapsed : Duration}

/-- The tick that an iteration waits for is due when it stores its time. -/
theorem Iterates.due_le (h : t.Iterates previous elapsed) : t.due ≤ elapsed.millis := by
  obtain ⟨-, hwoke, helapsed⟩ := h
  rw [Duration.le_def] at helapsed
  simp only [sleep, Duration.nanos_ofMillis] at hwoke
  rw [Duration.millis, Nat.le_div_iff_mul_le (by decide)]
  omega

/-- The next tick lies after the stored time, or is the first one. -/
def Ahead (t : Ticker) : Prop := t.shown ≤ t.due

theorem ahead_start : start.Ahead := Nat.le_refl 0

theorem ahead_store (t : Ticker) (elapsed : Duration) : (t.store elapsed).Ahead := Nat.le_succ _

end Ticker

/-! ## The clock -/

namespace MonotonicClock

variable {c : MonotonicClock}

/-- The clock after an iteration of its ticker. -/
def tick (c : MonotonicClock) (elapsed : Duration) : MonotonicClock :=
  { c with ticker := c.ticker.store elapsed }

/-- The milliseconds from the epoch to the stored time. -/
def count (c : MonotonicClock) : Nat := c.offset.toNat + c.ticker.shown

/-- The milliseconds from the epoch to the stored time are counted in 64 bits, which hold those of more
than five hundred million years. -/
def Fits (c : MonotonicClock) : Prop := c.count < 2 ^ 64

instance (c : MonotonicClock) : Decidable c.Fits := inferInstanceAs (Decidable (_ < _))

/-- As long as they are counted in 64 bits, the clock reads the milliseconds since its epoch. -/
theorem Fits.toNat_reading (h : c.Fits) : c.reading.toNat = c.count := by
  have hcount : c.offset.toNat + c.ticker.shown < 2 ^ 64 := h
  rw [reading, UInt64.toNat_add, UInt64.toNat_ofNat_of_lt' (by show _ < 2 ^ 64; omega), count]
  exact Nat.mod_eq_of_lt hcount

/-- An iteration does not take the clock back. -/
theorem count_le_tick {previous elapsed : Duration} (hahead : c.ticker.Ahead)
    (h : c.ticker.Iterates previous elapsed) : c.count ≤ (c.tick elapsed).count :=
  Nat.add_le_add_left (Nat.le_trans hahead h.due_le) _

end MonotonicClock

/-! ## Polls on the clock -/

namespace Generator

variable {g g' : Generator} {now : UInt64} {result : Outcome Poll}

/-- A poll at the last timestamp or later does not find that the clock moved backwards. -/
theorem poll_ne_clockMovedBackwards (hlast : g.last.timestamp ≤ now)
    (h : g.poll now = (result, g')) (last reading : UInt64) :
    result ≠ .error (.clockMovedBackwards last reading) := by
  have hback : ¬ now < g.last.timestamp := UInt64.not_lt.mpr hlast
  unfold poll at h
  split at h
  · split at h <;> cases h <;> simp
  · split at h
    · split at h <;> cases h <;> simp
    · rename_i hne hlater
      exact absurd (UInt64.lt_of_le_of_ne (UInt64.not_lt.mp hlater) hne) hback

/-- A poll at the last timestamp or later issues nothing after its reading. -/
theorem timestamp_le_of_poll (hclear : g.last.TopBitClear) (hlast : g.last.timestamp ≤ now)
    (h : g.poll now = (result, g')) : g'.last.TopBitClear ∧ g'.last.timestamp ≤ now := by
  obtain ⟨-, hnext⟩ | ⟨rfl, -⟩ := poll_cases hclear h
  · exact ⟨hnext.topBitClear, hnext.timestamp_eq ▸ UInt64.le_refl _⟩
  · exact ⟨hclear, hlast⟩

end Generator

/-- A generator together with the reading of the poll that holds it, if one does. -/
structure Guarded where
  generator : Generator
  /-- What the poll that holds the generator has read. -/
  taken : Option UInt64
  deriving DecidableEq

/-- What the generator has issued lies neither after the count nor after the reading of the poll that
holds it, and that reading does not lie after the count either. -/
structure Guarded.Behind (count : Nat) (p : Guarded) : Prop where
  topBitClear : p.generator.last.TopBitClear
  issued_le : p.generator.last.timestamp.toNat ≤ count
  issued_le_taken : ∀ now ∈ p.taken, p.generator.last.timestamp ≤ now
  taken_le : ∀ now ∈ p.taken, now.toNat ≤ count

/-- What lies behind a count lies behind greater ones. -/
theorem Guarded.Behind.mono {count count' : Nat} {p : Guarded} (h : p.Behind count)
    (hle : count ≤ count') : p.Behind count' :=
  ⟨h.topBitClear, Nat.le_trans h.issued_le hle, h.issued_le_taken,
    fun now hnow => Nat.le_trans (h.taken_le now hnow) hle⟩

/-- A generator that has just been made has issued nothing. -/
theorem Generator.Made.behind {datacenter machine : UInt64} {g : Generator}
    (h : Made datacenter machine g) (count : Nat) : Guarded.Behind count ⟨g, none⟩ := by
  obtain ⟨l, -, rfl⟩ := h.exists_location
  have htimestamp : l.freshGenerator.last.timestamp.toNat = 0 :=
    PackedId.toNat_timestamp_pack 0 l.datacenter l.machine 0
  exact ⟨PackedId.topBitClear_pack _ _ _ _, htimestamp ▸ Nat.zero_le count, nofun, nofun⟩

/-- A monotonic clock with the generators that were made on it. -/
structure Rig where
  clock : MonotonicClock
  /-- When the ticker last looked at the time, since its start. -/
  looked : Duration
  generators : List Guarded

namespace Rig

/-- What happens around a clock. -/
inductive Event
  /-- The ticker stores a time. -/
  | stored (time : UInt64)
  /-- Someone reads the clock. -/
  | read (now : UInt64)
  /-- A generator is made on the clock. -/
  | made
  /-- A poll takes hold of a generator and reads the clock. -/
  | taken (number : Nat) (now : UInt64)
  /-- A poll makes something of its reading and lets go of the generator. -/
  | polled (number : Nat) (result : Outcome Poll)

namespace Event

/-- The time that is stored, if one is. -/
def stored? : Event → Option UInt64
  | stored time => some time
  | _ => none

/-- What is read, by a poll or otherwise, if something is. -/
def reading? : Event → Option UInt64
  | read now | taken _ now => some now
  | _ => none

/-- A poll is refused because the clock is said to have moved backwards. -/
def Refuses : Event → Prop
  | polled _ (.error (.clockMovedBackwards _ _)) => True
  | _ => False

end Event

/-- One thing that happens, whichever one it is. -/
inductive Step : Rig → Event → Rig → Prop
  | tick {rig : Rig} {elapsed : Duration} (h : rig.clock.ticker.Iterates rig.looked elapsed) :
      Step rig (.stored (.ofNat elapsed.millis)) ⟨rig.clock.tick elapsed, elapsed, rig.generators⟩
  | read {rig : Rig} {now : UInt64} {clock : MonotonicClock}
      (hread : TimeSource.read rig.clock = (now, clock)) :
      Step rig (.read now) { rig with clock }
  | make {rig : Rig} {datacenter machine : UInt64} {g : Generator}
      (h : Generator.Made datacenter machine g) :
      Step rig .made { rig with generators := rig.generators ++ [⟨g, none⟩] }
  | take {rig : Rig} {number : Nat} {g : Generator} {now : UInt64} {clock : MonotonicClock}
      (hfree : rig.generators[number]? = some ⟨g, none⟩)
      (hread : TimeSource.read rig.clock = (now, clock)) :
      Step rig (.taken number now)
        { rig with clock, generators := rig.generators.set number ⟨g, some now⟩ }
  | poll {rig : Rig} {number : Nat} {g g' : Generator} {now : UInt64} {result : Outcome Poll}
      (htaken : rig.generators[number]? = some ⟨g, some now⟩) (hpoll : g.poll now = (result, g')) :
      Step rig (.polled number result)
        { rig with generators := rig.generators.set number ⟨g', none⟩ }

/-- Things that happen one after the other. -/
inductive Run : Rig → List Event → Rig → Prop
  | nil (rig : Rig) : Run rig [] rig
  | cons {rig rig₁ rig' : Rig} {e : Event} {later : List Event} (hstep : Step rig e rig₁)
      (rest : Run rig₁ later rig') : Run rig (e :: later) rig'

variable {rig rig₁ rig' : Rig} {e : Event} {log : List Event}

/-! ## One step -/

/-- Nothing takes the clock back. -/
theorem Step.count_le (h : Step rig e rig') (hahead : rig.clock.ticker.Ahead) :
    rig.clock.count ≤ rig'.clock.count ∧ rig'.clock.ticker.Ahead := by
  cases h with
  | @tick elapsed h =>
    exact ⟨MonotonicClock.count_le_tick hahead h, rig.clock.ticker.ahead_store elapsed⟩
  | read hread | take _ hread =>
    cases hread
    exact ⟨Nat.le_refl _, hahead⟩
  | make | poll => exact ⟨Nat.le_refl _, hahead⟩

/-- Neither the generators nor the polls are ahead of the clock. -/
def Sound (rig : Rig) : Prop := ∀ p ∈ rig.generators, p.Behind rig.clock.count

/-- A generator is changed in its place. -/
theorem Sound.set {number : Nat} {p : Guarded} (h : rig.Sound) (hp : p.Behind rig.clock.count) :
    Sound { rig with generators := rig.generators.set number p } := by
  intro q hq
  rcases List.mem_or_eq_of_mem_set hq with hmem | rfl
  · exact h q hmem
  · exact hp

/-- Nothing takes a generator or a poll ahead of the clock. -/
theorem Step.sound (h : Step rig e rig') (hahead : rig.clock.ticker.Ahead) (hfits : rig.clock.Fits)
    (hsound : rig.Sound) : rig'.Sound := by
  cases h with
  | tick h => exact fun p hp => (hsound p hp).mono (MonotonicClock.count_le_tick hahead h)
  | read hread =>
    cases hread
    exact hsound
  | make hmade =>
    intro p hp
    rcases List.mem_append.mp hp with hmem | hnew
    · exact hsound p hmem
    · rw [List.mem_singleton.mp hnew]
      exact hmade.behind _
  | @take number g now clock hfree hread =>
    cases hread
    have hbehind := hsound _ (List.mem_of_getElem? hfree)
    -- the poll reads the present count, and what was issued does not lie after it
    have hissued : g.last.timestamp ≤ rig.clock.reading := by
      rw [UInt64.le_iff_toNat_le, hfits.toNat_reading]
      exact hbehind.issued_le
    refine hsound.set ⟨hbehind.topBitClear, hbehind.issued_le, ?_, ?_⟩
    · rintro now ⟨⟩
      exact hissued
    · rintro now ⟨⟩
      exact Nat.le_of_eq hfits.toNat_reading
  | @poll number g g' now result htaken hpoll =>
    have hbehind := hsound _ (List.mem_of_getElem? htaken)
    obtain ⟨hclear, hissued⟩ :=
      Generator.timestamp_le_of_poll hbehind.topBitClear (hbehind.issued_le_taken now rfl) hpoll
    refine hsound.set ⟨hclear, ?_, nofun, nofun⟩
    exact Nat.le_trans (UInt64.le_iff_toNat_le.mp hissued) (hbehind.taken_le now rfl)

/-- No poll is refused because the clock is said to have moved backwards. -/
theorem Step.not_refuses (h : Step rig e rig') (hsound : rig.Sound) : ¬ e.Refuses := by
  cases h with
  | tick | read | make | take => exact id
  | poll htaken hpoll =>
    have hlast := (hsound _ (List.mem_of_getElem? htaken)).issued_le_taken _ rfl
    have hne := Generator.poll_ne_clockMovedBackwards hlast hpoll
    unfold Event.Refuses
    split
    · rename_i hevent
      cases hevent
      exact absurd rfl (hne _ _)
    · exact id

/-- What is read is the present reading. -/
theorem Step.reading_eq (h : Step rig e rig') {now : UInt64} (hnow : e.reading? = some now) :
    now = rig.clock.reading := by
  cases h with
  | read hread | take _ hread =>
    cases hread
    exact (Option.some.inj hnow).symm
  | tick | make | poll => cases hnow

/-- What is stored is the tick that was due or a later one, and the next tick is due after it. -/
theorem Step.due_le (h : Step rig e rig') (hfits : rig'.clock.Fits) {time : UInt64}
    (htime : e.stored? = some time) :
    rig.clock.ticker.due ≤ time.toNat ∧ time.toNat < rig'.clock.ticker.due := by
  cases h with
  | @tick elapsed h =>
    cases htime
    have hcount : rig.clock.offset.toNat + elapsed.millis < 2 ^ 64 := hfits
    rw [UInt64.toNat_ofNat_of_lt' (by show _ < 2 ^ 64; omega)]
    exact ⟨h.due_le, Nat.lt_succ_self _⟩
  | read | make | take | poll => cases htime

/-- Where nothing is stored, the next tick stays. -/
theorem Step.due_eq (h : Step rig e rig') (hnone : e.stored? = none) :
    rig'.clock.ticker.due = rig.clock.ticker.due := by
  cases h with
  | tick => cases hnone
  | read hread | take _ hread =>
    cases hread
    rfl
  | make | poll => rfl

/-! ## Runs -/

/-- A run does not take the clock back. -/
theorem Run.count_le (h : Run rig log rig') (hahead : rig.clock.ticker.Ahead) :
    rig.clock.count ≤ rig'.clock.count := by
  induction h with
  | nil => exact Nat.le_refl _
  | cons hstep _ ih =>
    obtain ⟨hle, hnext⟩ := hstep.count_le hahead
    exact Nat.le_trans hle (ih hnext)

/-- What is stored in a run is the tick that is due at first or a later one, and ever greater. -/
theorem Run.stored (h : Run rig log rig') (hahead : rig.clock.ticker.Ahead)
    (hfits : rig'.clock.Fits) :
    (∀ time ∈ log.filterMap Event.stored?, rig.clock.ticker.due ≤ time.toNat)
      ∧ (log.filterMap Event.stored?).Pairwise (· < ·) := by
  -- the tick that is due next parts what is stored from all that is stored later
  induction h with
  | nil => exact ⟨nofun, .nil⟩
  | @cons rig rig₁ rig' e later hstep rest ih =>
    have hnext := (hstep.count_le hahead).2
    obtain ⟨hdue, hpairwise⟩ := ih hnext hfits
    have hfits₁ : rig₁.clock.Fits := Nat.lt_of_le_of_lt (rest.count_le hnext) hfits
    cases he : e.stored? with
    | none =>
      rw [List.filterMap_cons_none he, ← hstep.due_eq he]
      exact ⟨hdue, hpairwise⟩
    | some time =>
      obtain ⟨hle, hlt⟩ := hstep.due_le hfits₁ he
      rw [List.filterMap_cons_some he]
      have hlater : ∀ t ∈ later.filterMap Event.stored?, time.toNat < t.toNat :=
        fun t ht => Nat.lt_of_lt_of_le hlt (hdue t ht)
      refine ⟨?_, .cons hlater hpairwise⟩
      rintro t ht
      rcases List.mem_cons.mp ht with rfl | ht
      · exact hle
      · exact Nat.le_trans hle (Nat.le_of_lt (hlater t ht))

/-- What is read in a run does not lie before the count at first, nor before what was read earlier. -/
theorem Run.readings (h : Run rig log rig') (hahead : rig.clock.ticker.Ahead)
    (hfits : rig'.clock.Fits) :
    (∀ now ∈ log.filterMap Event.reading?, rig.clock.count ≤ now.toNat)
      ∧ (log.filterMap Event.reading?).Pairwise (· ≤ ·) := by
  -- the present count parts what is read from all that is read later
  induction h with
  | nil => exact ⟨nofun, .nil⟩
  | @cons rig rig₁ rig' e later hstep rest ih =>
    obtain ⟨hle, hnext⟩ := hstep.count_le hahead
    obtain ⟨hcount, hpairwise⟩ := ih hnext hfits
    have hfits₀ : rig.clock.Fits :=
      Nat.lt_of_le_of_lt (Nat.le_trans hle (rest.count_le hnext)) hfits
    have hlater : ∀ now ∈ later.filterMap Event.reading?, rig.clock.count ≤ now.toNat :=
      fun now hnow => Nat.le_trans hle (hcount now hnow)
    cases he : e.reading? with
    | none =>
      rw [List.filterMap_cons_none he]
      exact ⟨hlater, hpairwise⟩
    | some now =>
      have hnow : now.toNat = rig.clock.count := by
        rw [hstep.reading_eq he, hfits₀.toNat_reading]
      rw [List.filterMap_cons_some he]
      refine ⟨List.forall_mem_cons.mpr ⟨Nat.le_of_eq hnow.symm, hlater⟩, .cons ?_ hpairwise⟩
      intro r hr
      rw [UInt64.le_iff_toNat_le, hnow]
      exact hlater r hr

/-- No poll of a run is refused because the clock is said to have moved backwards. -/
theorem Run.not_refuses (h : Run rig log rig') (hahead : rig.clock.ticker.Ahead)
    (hsound : rig.Sound) (hfits : rig'.clock.Fits) : ∀ e ∈ log, ¬ e.Refuses := by
  induction h with
  | nil => exact nofun
  | @cons rig rig₁ rig' e later hstep rest ih =>
    obtain ⟨hle, hnext⟩ := hstep.count_le hahead
    have hfits₀ : rig.clock.Fits :=
      Nat.lt_of_le_of_lt (Nat.le_trans hle (rest.count_le hnext)) hfits
    exact List.forall_mem_cons.mpr
      ⟨hstep.not_refuses hsound, ih hnext (hstep.sound hahead hfits₀ hsound) hfits⟩

/-- What a run shows in which no time goes back. -/
structure NeverBack (log : List Event) : Prop where
  /-- The ticker stores ever greater times. -/
  stored : (log.filterMap Event.stored?).Pairwise (· < ·)
  /-- No reading, by a poll or otherwise, lies before an earlier one. -/
  readings : (log.filterMap Event.reading?).Pairwise (· ≤ ·)
  /-- No poll is refused because the clock is said to have moved backwards. -/
  polls : ∀ e ∈ log, ¬ e.Refuses

/-- A clock that has just been made, without generators. -/
def ofClock (c : MonotonicClock) : Rig := ⟨c, .zero, []⟩

/-- **No way back.** Whatever happens around a monotonic clock from its start on, where time never goes
back and no sleep ends early: the ticker stores ever greater times, readings never decrease, and no poll
finds that the clock moved backwards. Ticker and clock count milliseconds in 64 bits, and that the last
count of a run is in their range is all that `hfits` says: no run of less than five hundred million
years leaves it. -/
theorem never_goes_back {epoch : Duration} {system : UInt64} {c : MonotonicClock}
    (hc : MonotonicClock.ofEpoch epoch system = .ok c) (hrun : Run (ofClock c) log rig')
    (hfits : rig'.clock.Fits) : NeverBack log := by
  have hahead : c.ticker.Ahead := by
    unfold MonotonicClock.ofEpoch at hc
    dsimp only at hc
    split at hc
    · cases hc
    · cases hc
      exact Ticker.ahead_start
  exact ⟨(hrun.stored hahead hfits).2, (hrun.readings hahead hfits).2,
    hrun.not_refuses hahead nofun hfits⟩

/-- The ticker stores a time while a poll holds a generator and has read an earlier one. -/
def overtakenLog : List Event :=
  [.stored 0, .made, .taken 0 1000, .stored 2, .read 1002, .polled 0 (.ok (.ready (.pack 1000 1 2 0))),
    .taken 0 1002, .polled 0 (.ok (.ready (.pack 1002 1 2 0)))]

/-- The clock is made a second after its epoch, and the ticker oversleeps. -/
theorem never_goes_back_overtaken :
    MonotonicClock.ofEpoch .zero 1000 = .ok ⟨0, 1000, .start⟩
      ∧ ∃ rig', Run (ofClock ⟨0, 1000, .start⟩) overtakenLog rig' ∧ rig'.clock.Fits
        ∧ NeverBack overtakenLog := by
  have hc : MonotonicClock.ofEpoch .zero 1000 = .ok ⟨0, 1000, .start⟩ := rfl
  have hfirst : Ticker.start.Iterates .zero ⟨300⟩ :=
    @Ticker.Iterates.intro _ _ _ ⟨100⟩ ⟨100⟩ (by decide) (by decide) (by decide)
  have hsecond : (Ticker.start.store ⟨300⟩).Iterates ⟨300⟩ ⟨2500000⟩ :=
    @Ticker.Iterates.intro _ _ _ ⟨400000⟩ ⟨1100000⟩ (by decide) (by decide) (by decide)
  have hmade : Generator.Made 1 2 ⟨.pack 0 1 2 0⟩ := .alone rfl
  have hrun : Run (ofClock ⟨0, 1000, .start⟩) overtakenLog
      ⟨⟨0, 1000, ⟨2, 3⟩⟩, ⟨2500000⟩, [⟨⟨.pack 1002 1 2 0⟩, none⟩]⟩ := by
    refine .cons (@Step.tick _ ⟨300⟩ hfirst) ?_
    refine .cons (.make hmade) ?_
    refine .cons (.take rfl rfl) ?_
    refine .cons (@Step.tick _ ⟨2500000⟩ hsecond) ?_
    refine .cons (.read rfl) ?_
    refine .cons (.poll rfl rfl) ?_
    refine .cons (.take rfl rfl) ?_
    exact .cons (.poll rfl rfl) (.nil _)
  have hfits : MonotonicClock.Fits ⟨0, 1000, ⟨2, 3⟩⟩ := by decide
  exact ⟨hc, _, hrun, hfits, never_goes_back hc hrun hfits⟩

end Rig

end IdMint
