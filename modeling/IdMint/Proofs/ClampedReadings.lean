import IdMint.Proofs.PollForecasts
import IdMint.Proofs.RegistryView

/-! # Readings before the epoch

While the system time lies before its epoch, a wall clock reads zero. A generator refuses that as a
step back only if its last timestamp is positive, and a generator that has just been made starts from
the timestamp zero. So a poll before the epoch is refused exactly if a poll before it was dated after
the epoch; until then such polls are answered like any other poll at the reading zero, with an
identifier or with the request to wait. -/

namespace IdMint

namespace WallClock

variable {c : WallClock} {now : UInt64}

/-- The clock dates a system time after its epoch, by a reading that fits the timestamp field. -/
def Dates (c : WallClock) (now : UInt64) : Prop :=
  c.epoch < now ∧ now - c.epoch ≤ IdField.timestamp.greatest

instance (c : WallClock) (now : UInt64) : Decidable (c.Dates now) :=
  inferInstanceAs (Decidable (_ ∧ _))

/-- The clock reads zero up to its epoch, and only then. -/
theorem reading_eq_zero_iff : c.reading now = 0 ↔ now ≤ c.epoch := by
  unfold reading
  split
  · rename_i hbefore
    exact ⟨fun _ => UInt64.le_of_lt hbefore, fun _ => rfl⟩
  · rename_i hsince
    have hle : c.epoch ≤ now := UInt64.not_lt.mp hsince
    rw [← UInt64.toNat_inj, UInt64.toNat_sub_of_le _ _ hle, UInt64.le_iff_toNat_le]
    rw [UInt64.le_iff_toNat_le] at hle
    simp only [UInt64.toNat_zero]
    omega

/-- A system time is dated exactly if its reading is positive and fits the timestamp field. -/
theorem dates_iff :
    c.Dates now ↔ c.reading now ≠ 0 ∧ c.reading now ≤ IdField.timestamp.greatest := by
  rw [Dates, ne_eq, reading_eq_zero_iff, UInt64.not_le]
  refine and_congr_right fun hafter => ?_
  rw [reading, if_neg (UInt64.not_lt.mpr (UInt64.le_of_lt hafter))]

end WallClock

namespace Origin

variable {start : Origin} {earlier : List UInt64}

/-- The greatest reading is one that was read and fits, or the first timestamp. -/
theorem latest_eq_or_mem (start : Origin) (earlier : List UInt64) :
    start.latest earlier = start.timestamp
      ∨ start.latest earlier ∈ earlier ∧ start.latest earlier ≤ IdField.timestamp.greatest := by
  -- the readings grow at their end, where the next poll adds its own
  induction earlier using List.reverseRecOn with
  | nil => exact .inl rfl
  | append_singleton earlier now ih =>
    have hkept : start.latest earlier = start.timestamp
        ∨ start.latest earlier ∈ earlier ++ [now]
          ∧ start.latest earlier ≤ IdField.timestamp.greatest :=
      ih.imp_right fun ⟨hmem, hle⟩ => ⟨List.mem_append_left _ hmem, hle⟩
    rcases UInt64.lt_or_le IdField.timestamp.greatest now with hlarge | hfits
    · rwa [latest_snoc_of_lt hlarge]
    · rw [latest_snoc hfits]
      split
      · exact .inr ⟨List.mem_append_right _ (List.mem_singleton_self now), hfits⟩
      · exact hkept

/-- From the timestamp zero on, the greatest reading is zero as long as no positive one fits. -/
theorem latest_eq_zero_iff (hstart : start.timestamp = 0) :
    start.latest earlier = 0 ↔ ∀ r ∈ earlier, r ≤ IdField.timestamp.greatest → r = 0 := by
  constructor
  · intro hlatest r hr hfits
    have hle := (start.le_latest earlier).2 r hr hfits
    rwa [hlatest, UInt64.le_zero_iff] at hle
  · intro hzero
    rcases start.latest_eq_or_mem earlier with heq | ⟨hmem, hfits⟩
    · exact heq.trans hstart
    · exact hzero _ hmem hfits

/-- A poll at the reading zero, of a generator that starts from the timestamp and the sequence number
zero: it is refused once a positive reading was recalled, and numbered like any other poll until then. -/
theorem foresee_zero (start : Origin) (earlier : List UInt64) (hstart : start.timestamp = 0)
    (hsequence : start.sequence = 0) :
    start.foresee earlier 0
      = if start.latest earlier = 0 then
          if earlier.count 0 < 4095 then
            .ok (.ready (.pack 0 start.datacenter start.machine (.ofNat (earlier.count 0 + 1))))
          else .ok (.pending 1)
        else .error (.clockMovedBackwards (start.latest earlier) 0) := by
  rw [foresee]
  by_cases hlatest : start.latest earlier = 0
  · have hnumber : start.number earlier 0 = earlier.count 0 + 1 := by
      simp only [number, hstart, hlatest, hsequence, and_self, if_true, UInt64.toNat_zero]
      omega
    rw [hlatest, if_neg (UInt64.lt_irrefl 0), if_neg (by decide), if_pos rfl, hnumber]
    rfl
  · rw [if_pos (UInt64.pos_iff_ne_zero.mpr hlatest), if_neg hlatest]

end Origin

/-! ## Polls of a watched wall clock -/

/-- What a wall clock reads at the first system times that it finds. -/
def WallClock.readings (c : WallClock) (system : Nat → UInt64) (count : Nat) : List UInt64 :=
  (List.range count).map fun i => c.reading (system i)

/-- A watched wall clock answers what it reads at the system times that it finds. -/
theorem WatchedWallClock.reads (c : WallClock) (system : Nat → UInt64) (count : Nat) :
    TimeSource.Reads (⟨c, system⟩ : WatchedWallClock) (c.readings system count)
      ⟨c, fun n => system (n + count)⟩ := by
  induction count generalizing system with
  | zero => exact .nil _
  | succ count ih =>
    have hlater := ih fun n => system (n + 1)
    simp only [Nat.add_assoc] at hlater
    rw [WallClock.readings, List.range_succ_eq_map, List.map_cons, List.map_map]
    exact .cons rfl hlater

namespace WallClock

variable {c : WallClock} {system : Nat → UInt64} {i count : Nat}

/-- The first readings are those at the first system times. -/
theorem take_readings (h : i ≤ count) : (c.readings system count).take i = c.readings system i := by
  rw [readings, List.map_take.symm, List.take_range, Nat.min_eq_left h, readings]

/-- As many readings are zero as system times do not lie after the epoch. -/
theorem count_readings (c : WallClock) (system : Nat → UInt64) (count : Nat) :
    (c.readings system count).count 0 = (List.range count).countP fun j => system j ≤ c.epoch := by
  rw [readings, List.count_eq_countP, List.countP_map]
  refine List.countP_congr fun j _ => ?_
  simp [reading_eq_zero_iff]

/-- The greatest reading that fits is zero as long as the clock dates no system time. -/
theorem latest_readings_eq_zero_iff {start : Origin} (hstart : start.timestamp = 0) :
    start.latest (c.readings system count) = 0 ↔ ∀ j < count, ¬ c.Dates (system j) := by
  rw [Origin.latest_eq_zero_iff hstart]
  simp only [readings, List.forall_mem_map, List.mem_range, dates_iff, not_and, ne_eq]
  exact forall₂_congr fun j _ => not_imp_not.symm.trans (by tauto)

/-- The greatest reading that fits is that of a system time with the latest date, if there is one. -/
theorem exists_latest_readings (start : Origin) (hstart : start.timestamp = 0)
    (h : ∃ j < count, c.Dates (system j)) :
    ∃ j < count, c.Dates (system j) ∧ start.latest (c.readings system count) = c.reading (system j)
      ∧ ∀ k < count, c.Dates (system k) → c.reading (system k) ≤ c.reading (system j) := by
  have hpositive : start.latest (c.readings system count) ≠ 0 := by
    rw [ne_eq, latest_readings_eq_zero_iff hstart]
    push Not
    exact h
  rcases start.latest_eq_or_mem (c.readings system count) with heq | ⟨hmem, hfits⟩
  · exact absurd (heq.trans hstart) hpositive
  · obtain ⟨j, hj, hlatest⟩ := List.mem_map.mp hmem
    rw [← hlatest] at hpositive hfits
    refine ⟨j, List.mem_range.mp hj, dates_iff.mpr ⟨hpositive, hfits⟩, hlatest.symm, ?_⟩
    intro k hk hdated
    rw [hlatest]
    exact (start.le_latest _).2 _ (List.mem_map.mpr ⟨k, List.mem_range.mpr hk, rfl⟩)
      (dates_iff.mp hdated).2

/-- What comes of a poll that is made before the epoch, by a generator for two numbers that was polled
at `count` system times before. -/
structure BeforeEpoch (c : WallClock) (datacenter machine : UInt64) (system : Nat → UInt64)
    (count : Nat) (result : Outcome Poll) : Prop where
  /-- It is refused as a step back exactly if a poll before it was dated. -/
  refused_iff : (∃ last now, result = .error (.clockMovedBackwards last now))
    ↔ ∃ j < count, c.Dates (system j)
  /-- The refusal names the latest date and the reading zero. -/
  refused : (∃ j < count, c.Dates (system j)) →
    ∃ j < count, c.Dates (system j)
      ∧ (∀ k < count, c.Dates (system k) → c.reading (system k) ≤ c.reading (system j))
      ∧ result = .error (.clockMovedBackwards (c.reading (system j)) 0)
  /-- Where no poll before it was dated, it is numbered among the polls up to the epoch. -/
  numbered : (∀ j < count, ¬ c.Dates (system j)) →
    let earlier := (List.range count).countP fun j => system j ≤ c.epoch
    result = if earlier < 4095 then
        .ok (.ready (.pack 0 datacenter machine (.ofNat (earlier + 1))))
      else .ok (.pending 1)

/-- What is foreseen of a poll at the reading zero. -/
theorem beforeEpoch_foresee (c : WallClock) (system : Nat → UInt64) (count : Nat)
    (datacenter machine : UInt64) :
    c.BeforeEpoch datacenter machine system count
      (Origin.foresee ⟨0, datacenter, machine, 0⟩ (c.readings system count) 0) := by
  have hforesee :=
    Origin.foresee_zero ⟨0, datacenter, machine, 0⟩ (c.readings system count) rfl rfl
  by_cases hdated : ∃ j < count, c.Dates (system j)
  · obtain ⟨j, hj, hj_dated, hlatest, hgreatest⟩ :=
      exists_latest_readings ⟨0, datacenter, machine, 0⟩ rfl hdated
    rw [if_neg (hlatest ▸ (dates_iff.mp hj_dated).1), hlatest] at hforesee
    refine ⟨iff_of_true ⟨_, _, hforesee⟩ hdated, fun _ => ⟨j, hj, hj_dated, hgreatest, hforesee⟩, ?_⟩
    exact fun hnone => absurd hj_dated (hnone j hj)
  · have hnone : ∀ j < count, ¬ c.Dates (system j) := fun j hj h => hdated ⟨j, hj, h⟩
    rw [if_pos ((latest_readings_eq_zero_iff rfl).mpr hnone), count_readings] at hforesee
    refine ⟨iff_of_false ?_ hdated, fun h => absurd h hdated, fun _ => hforesee⟩
    rintro ⟨last, now, hrefused⟩
    rw [hforesee] at hrefused
    split at hrefused <;> cases hrefused

end WallClock

/-! ## Generators on a wall clock -/

/-- The fresh generator of a location starts from the location and two zeros. -/
theorem Location.generator_origin (l : Location) :
    Origin.generator ⟨0, l.datacenter, l.machine, 0⟩ = .ok l.freshGenerator :=
  l.new_eq_freshGenerator

/-- **Polls before the epoch.** Whatever system times a wall clock finds, polls of a generator that was
made on it are answered; those before the epoch are refused exactly where a poll before them was dated. -/
theorem refused_iff_dated {datacenter machine : UInt64} {g : Generator}
    (hg : Generator.Made datacenter machine g) (c : WallClock) (system : Nat → UInt64) (count : Nat) :
    ∃ results g' clock', Generator.attempts count (g, (⟨c, system⟩ : WatchedWallClock))
        = some (results, g', clock')
      ∧ results.length = count
      ∧ ∀ i result, results[i]? = some result → system i < c.epoch →
        c.BeforeEpoch datacenter machine system i result := by
  obtain ⟨l, hl, rfl⟩ := hg.exists_location
  obtain ⟨rfl, rfl⟩ := Location.ofNumbers_eq_ok_iff.mp hl
  have hlength : (c.readings system count).length = count := by simp [WallClock.readings]
  have hattempts := Generator.attempts_of_reads (WatchedWallClock.reads c system count)
    l.freshGenerator
  rw [hlength] at hattempts
  obtain ⟨hresults, hforeseen⟩ :=
    (Origin.recalled_generator l.generator_origin).pollEach (c.readings system count)
  refine ⟨_, _, _, hattempts, hresults.trans hlength, ?_⟩
  intro i result hresult hbefore
  have hi : i < (c.readings system count).length :=
    hresults ▸ (List.getElem?_eq_some_iff.mp hresult).1
  have hreading : (c.readings system count)[i] = 0 := by
    simpa [WallClock.readings, WallClock.reading_eq_zero_iff] using UInt64.le_of_lt hbefore
  rw [hforeseen i hi, hreading, List.nil_append, WallClock.take_readings (hlength ▸ hi).le,
    Option.some.injEq] at hresult
  rw [← hresult]
  exact c.beforeEpoch_foresee system i _ _

/-- System times around the epoch 1000: before it, at it, before it again, after it, and before it. -/
def steppedTimes : Nat → UInt64 := fun i => [999, 1000, 998, 1005, 997].getD i 0

/-- Five polls at these system times, of a generator that a registry has made: the third one is issued
the third number of the timestamp zero, the last one is refused. -/
theorem refused_iff_dated_stepped :
    ∃ (r r' : Registry) (g : Generator), r.getGenerator 1 2 = .ok (0, r')
      ∧ r.generator? 0 = none ∧ r'.generator? 0 = some g
      ∧ (∃ results g' clock',
        Generator.attempts 5 (g, (⟨⟨1000⟩, steppedTimes⟩ : WatchedWallClock))
            = some (results, g', clock')
          ∧ results.length = 5
          ∧ ∀ i result, results[i]? = some result → steppedTimes i < 1000 →
            WallClock.BeforeEpoch ⟨1000⟩ 1 2 steppedTimes i result)
      ∧ steppedTimes 2 < 1000 ∧ (∀ j < 2, ¬ WallClock.Dates ⟨1000⟩ (steppedTimes j))
      ∧ steppedTimes 4 < 1000 ∧ WallClock.Dates ⟨1000⟩ (steppedTimes 3) := by
  have hget : Registry.empty.getGenerator 1 2
      = .ok (0, ⟨[(⟨1, 2, by decide, by decide⟩, ⟨.pack 0 1 2 0⟩)]⟩) := by rfl
  exact ⟨.empty, _, _, hget, rfl, rfl, refused_iff_dated (.kept hget rfl rfl) _ _ _, by decide,
    by decide, by decide, by decide⟩

/-- The wall clock is made at its epoch, the system time steps back, and the first poll of a new
generator is not refused but issues an identifier. -/
theorem issues_before_epoch :
    WallClock.ofEpoch (.ofMillis 1000) 1000 = .ok ⟨1000⟩
      ∧ Generator.Made 1 2 ⟨.pack 0 1 2 0⟩
      ∧ (999 : UInt64) < (⟨1000⟩ : WallClock).epoch
      ∧ Generator.attempt (⟨.pack 0 1 2 0⟩, (⟨⟨1000⟩, fun _ => 999⟩ : WatchedWallClock))
        = some (.ok (.ready (.pack 0 1 2 1)), ⟨.pack 0 1 2 1⟩, ⟨⟨1000⟩, fun _ => 999⟩) :=
  ⟨rfl, .alone rfl, by decide, rfl⟩

end IdMint
