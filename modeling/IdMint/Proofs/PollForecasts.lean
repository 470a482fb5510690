import IdMint.Proofs.ClockReadings
import IdMint.Proofs.EncodedFields
import Mathlib.Data.List.Induction

/-! # Polls foreseen

A generator keeps only its last identifier, yet what a poll comes to can be told from the readings of
all polls before it: from the greatest one that fits the timestamp field, and from how often the
present one has been read. The invariant is `Origin.Recalled`: the last identifier carries that
greatest reading, and counts how often it was read as far as the sequence field reaches. -/

namespace IdMint

/-- The fields that a generator starts from. -/
structure Origin where
  timestamp : UInt64
  datacenter : UInt64
  machine : UInt64
  sequence : UInt64

namespace Origin

/-- The generator that starts from the fields, if they fit. -/
def generator (start : Origin) : Outcome Generator :=
  Generator.ofFields start.timestamp start.datacenter start.machine start.sequence

/-- The greatest of the first timestamp and of those earlier readings that fit the timestamp field. -/
def latest (start : Origin) (earlier : List UInt64) : UInt64 :=
  (earlier.filter (· ≤ IdField.timestamp.greatest)).foldl max start.timestamp

/-- The sequence number that is due at a reading: how often it was read before. At the first timestamp
the numbers go on from the one that the generator starts from. -/
def number (start : Origin) (earlier : List UInt64) (now : UInt64) : Nat :=
  if now = start.timestamp ∧ now = start.latest earlier then
    start.sequence.toNat + 1 + earlier.count now
  else earlier.count now

/-- What a poll at the reading `now` comes to after polls at the readings `earlier`. -/
def foresee (start : Origin) (earlier : List UInt64) (now : UInt64) : Outcome Poll :=
  if now < start.latest earlier then .error (.clockMovedBackwards (start.latest earlier) now)
  else if IdField.timestamp.greatest < now then
    .error (.invalidArgument (.timestampOutOfRange now))
  else if start.number earlier now ≤ 4095 then
    .ok (.ready (.pack now start.datacenter start.machine (.ofNat (start.number earlier now))))
  else .ok (.pending 1)

variable {start : Origin} {earlier : List UInt64} {now : UInt64}

/-! ## The greatest reading -/

theorem latest_nil (start : Origin) : start.latest [] = start.timestamp := rfl

/-- A reading that does not fit the timestamp field leaves the greatest one. -/
theorem latest_snoc_of_lt (h : IdField.timestamp.greatest < now) :
    start.latest (earlier ++ [now]) = start.latest earlier := by
  simp [latest, List.filter_append, UInt64.not_le.mpr h]

/-- A reading that fits becomes the greatest one unless it lies before that. -/
theorem latest_snoc (h : now ≤ IdField.timestamp.greatest) :
    start.latest (earlier ++ [now])
      = if start.latest earlier ≤ now then now else start.latest earlier := by
  simp only [latest, List.filter_append, h, List.filter_cons, decide_true, if_true, List.filter_nil,
    List.foldl_append, List.foldl_cons, List.foldl_nil]
  rfl

/-- No earlier reading that fits lies after the greatest one, and neither does the first timestamp. -/
theorem le_latest (start : Origin) (earlier : List UInt64) :
    start.timestamp ≤ start.latest earlier
      ∧ ∀ r ∈ earlier, r ≤ IdField.timestamp.greatest → r ≤ start.latest earlier := by
  induction earlier using List.reverseRecOn with
  | nil => exact ⟨UInt64.le_refl _, fun r hr => absurd hr List.not_mem_nil⟩
  | append_singleton earlier now ih =>
    obtain ⟨hstart, hall⟩ := ih
    have hmono : start.latest earlier ≤ start.latest (earlier ++ [now]) := by
      rcases UInt64.lt_or_le IdField.timestamp.greatest now with hlarge | hfits
      · rw [latest_snoc_of_lt hlarge]
        exact UInt64.le_refl _
      · rw [latest_snoc hfits]
        split
        · assumption
        · exact UInt64.le_refl _
    refine ⟨UInt64.le_trans hstart hmono, ?_⟩
    intro r hr hfits
    rcases List.mem_append.mp hr with hr | hr
    · exact UInt64.le_trans (hall r hr hfits) hmono
    · obtain rfl := List.mem_singleton.mp hr
      rw [latest_snoc hfits]
      split
      · exact UInt64.le_refl _
      · exact UInt64.le_of_lt (UInt64.not_le.mp ‹_›)

/-- A reading that lies after the greatest one is read for the first time. -/
theorem new_of_latest_lt (hlater : start.latest earlier < now)
    (hfits : now ≤ IdField.timestamp.greatest) : now ≠ start.timestamp ∧ earlier.count now = 0 := by
  obtain ⟨hstart, hall⟩ := start.le_latest earlier
  constructor
  · rintro rfl
    exact UInt64.not_le.mpr hlater hstart
  · rw [List.count_eq_zero]
    intro hmem
    exact UInt64.not_le.mpr hlater (hall now hmem hfits)

/-- A reading adds one to the number that is due at the greatest reading if it is that one, and leaves
the number if it is another one. -/
theorem number_latest_snoc (hlatest : start.latest (earlier ++ [now]) = start.latest earlier) :
    start.number (earlier ++ [now]) (start.latest earlier)
      = start.number earlier (start.latest earlier) + if now = start.latest earlier then 1 else 0 := by
  simp only [number, hlatest, List.count_append, List.count_singleton, beq_iff_eq]
  split <;> omega

/-! ## One poll -/

/-- A number that is due and fits its field is the one that an identifier carries. -/
theorem toNat_ofNat_number (h : start.number earlier now ≤ 4095) :
    (UInt64.ofNat (start.number earlier now)).toNat = start.number earlier now :=
  UInt64.toNat_ofNat_of_lt' (Nat.lt_of_le_of_lt h (by decide))

/-- What a generator that started from the fields has kept of the readings since then. -/
structure Recalled (start : Origin) (earlier : List UInt64) (g : Generator) : Prop where
  timestamp_eq : g.last.timestamp = start.latest earlier
  datacenter_eq : g.last.datacenter = start.datacenter
  machine_eq : g.last.machine = start.machine
  /-- The last number is the one before the number that is due, as far as the field reaches. -/
  sequence_eq : g.last.sequence.toNat + 1 = min 4096 (start.number earlier (start.latest earlier))

/-- An identifier that is packed from fields that fit shows them. -/
theorem recalled_pack {timestamp sequence : UInt64}
    (hfits : timestamp ≤ IdField.timestamp.greatest) (hdatacenter : start.datacenter.toNat < 32)
    (hmachine : start.machine.toNat < 32) (hsequence : sequence.toNat ≤ 4095)
    (hlatest : start.latest earlier = timestamp)
    (hnumber : start.number earlier timestamp = sequence.toNat + 1) :
    start.Recalled earlier ⟨.pack timestamp start.datacenter start.machine sequence⟩ := by
  obtain ⟨ht, hd, hm, hs⟩ := PackedId.fields_pack hfits hdatacenter hmachine hsequence
  subst hlatest
  refine ⟨ht, hd, hm, ?_⟩
  rw [hs, hnumber]
  omega

/-- A generator that starts from fields that fit has read nothing so far. -/
theorem recalled_generator {g : Generator} (h : start.generator = .ok g) : start.Recalled [] g := by
  cases hid : PackedId.ofFields start.timestamp start.datacenter start.machine start.sequence with
  | error cause =>
    rw [generator, Generator.ofFields, hid] at h
    cases h
  | ok id =>
    rw [generator, Generator.ofFields, hid] at h
    cases h
    -- counted from the epoch zero, the fields are those of an identifier that is encoded
    have hsub : start.timestamp - 0 = start.timestamp := by simp
    have hencoded : DecodedId.encoded 0
        ⟨start.timestamp, start.datacenter, start.machine, start.sequence⟩ = .ok id.raw := by
      rw [DecodedId.encoded, encode, if_neg (UInt64.not_lt.mpr UInt64.zero_le), hsub, hid]
      rfl
    obtain ⟨hfields, hraw⟩ := DecodedId.encoded_eq_ok_iff.mp hencoded
    have hpack : id = .pack start.timestamp start.datacenter start.machine start.sequence := by
      dsimp only at hraw
      rw [hsub] at hraw
      exact congrArg PackedId.mk hraw.symm
    have htimestamp := hfields.timestamp
    have hsequence := hfields.sequence
    rw [hpack]
    refine recalled_pack ?_ hfields.datacenter hfields.machine (by dsimp only at hsequence; omega)
      (latest_nil start) ?_
    · rw [UInt64.le_iff_toNat_le, IdField.toNat_greatest_timestamp]
      simp at htimestamp
      omega
    · simp [number, latest_nil]

/-- The greatest reading fits its field, as the last identifier carries it. -/
theorem Recalled.latest_le {g : Generator} (h : start.Recalled earlier g) :
    start.latest earlier ≤ IdField.timestamp.greatest := by
  have hlt := g.last.toNat_timestamp_lt
  rw [← h.timestamp_eq, UInt64.le_iff_toNat_le, IdField.toNat_greatest_timestamp]
  omega

/-- There is room for another identifier as long as the number that is due fits its field. -/
theorem Recalled.hasRoom_iff {g : Generator} (h : start.Recalled earlier g) :
    g.last.hasRoom = true ↔ start.number earlier (start.latest earlier) ≤ 4095 := by
  have hsequence := h.sequence_eq
  rw [PackedId.hasRoom_iff]
  omega

/-- The next identifier of the same millisecond carries the number that is due. -/
theorem Recalled.increment_eq {g : Generator} (h : start.Recalled earlier g)
    (hnumber : start.number earlier (start.latest earlier) ≤ 4095) :
    g.last.increment = .pack (start.latest earlier) start.datacenter start.machine
      (.ofNat (start.number earlier (start.latest earlier))) := by
  have hsequence : g.last.sequence.toNat + 1 = start.number earlier (start.latest earlier) := by
    have hmin := h.sequence_eq
    omega
  have hnext : g.last.sequence + 1
      = UInt64.ofNat (start.number earlier (start.latest earlier)) := by
    rw [← hsequence, UInt64.ofNat_add, UInt64.ofNat_toNat]
    rfl
  rw [PackedId.increment, h.timestamp_eq, h.datacenter_eq, h.machine_eq, hnext]

/-- A poll that leaves the generator as it is recalls its reading, where that is not the greatest one
or the numbers of the greatest one are used up. -/
theorem Recalled.idle {g : Generator} (h : start.Recalled earlier g)
    (hlatest : start.latest (earlier ++ [now]) = start.latest earlier)
    (hidle : now = start.latest earlier → 4095 < start.number earlier (start.latest earlier)) :
    start.Recalled (earlier ++ [now]) g := by
  have hsequence := h.sequence_eq
  refine ⟨h.timestamp_eq.trans hlatest.symm, h.datacenter_eq, h.machine_eq, ?_⟩
  rw [hlatest, number_latest_snoc hlatest]
  by_cases hnow : now = start.latest earlier
  · have hused := hidle hnow
    simp only [hnow, if_true]
    omega
  · simpa [hnow] using hsequence

/-- **One poll.** It comes to what was foreseen, and the generator recalls its reading. -/
theorem Recalled.poll {g : Generator} (h : start.Recalled earlier g) (now : UInt64) :
    (g.poll now).1 = start.foresee earlier now ∧ start.Recalled (earlier ++ [now]) (g.poll now).2 := by
  have hfits := h.latest_le
  have hdatacenter : start.datacenter.toNat < 32 := h.datacenter_eq ▸ g.last.toNat_datacenter_lt
  have hmachine : start.machine.toNat < 32 := h.machine_eq ▸ g.last.toNat_machine_lt
  rw [Generator.poll, foresee, h.timestamp_eq]
  by_cases hsame : now = start.latest earlier
  · -- the same millisecond: the number that is due decides
    subst hsame
    have hlatest : start.latest (earlier ++ [start.latest earlier]) = start.latest earlier := by
      rw [latest_snoc hfits, if_pos (UInt64.le_refl _)]
    rw [if_pos rfl, if_neg (UInt64.lt_irrefl _), if_neg (UInt64.not_lt.mpr hfits)]
    by_cases hnumber : start.number earlier (start.latest earlier) ≤ 4095
    · have htoNat := toNat_ofNat_number hnumber
      rw [if_pos (h.hasRoom_iff.mpr hnumber), if_pos hnumber, h.increment_eq hnumber]
      refine ⟨rfl, recalled_pack hfits hdatacenter hmachine (by omega) hlatest ?_⟩
      rw [number_latest_snoc hlatest, if_pos rfl, htoNat]
    · rw [if_neg (fun room => hnumber (h.hasRoom_iff.mp room)), if_neg hnumber]
      exact ⟨rfl, h.idle hlatest fun _ => Nat.lt_of_not_le hnumber⟩
  rw [if_neg hsame]
  by_cases hlater : start.latest earlier < now
  · rw [if_pos hlater, if_neg (UInt64.not_lt.mpr (UInt64.le_of_lt hlater))]
    by_cases hlarge : IdField.timestamp.greatest < now
    · rw [if_pos hlarge, if_pos hlarge]
      exact ⟨rfl, h.idle (latest_snoc_of_lt hlarge) fun heq => absurd heq hsame⟩
    · -- a new millisecond, which has not been read before
      have hnow : now ≤ IdField.timestamp.greatest := UInt64.not_lt.mp hlarge
      obtain ⟨hother, hcount⟩ := new_of_latest_lt hlater hnow
      have hnumber : start.number earlier now = 0 := by simp [number, hother, hcount]
      rw [if_neg hlarge, if_neg hlarge, hnumber, if_pos (Nat.zero_le _), PackedId.rollover,
        h.datacenter_eq, h.machine_eq]
      refine ⟨rfl, recalled_pack hnow hdatacenter hmachine (Nat.zero_le _) ?_ ?_⟩
      · rw [latest_snoc hnow, if_pos (UInt64.le_of_lt hlater)]
      · simp [number, hother, hcount]
  · -- a millisecond that is over
    have hearlier : now < start.latest earlier :=
      UInt64.lt_of_le_of_ne (UInt64.not_lt.mp hlater) hsame
    have hlatest : start.latest (earlier ++ [now]) = start.latest earlier := by
      rw [latest_snoc (UInt64.le_trans (UInt64.not_lt.mp hlater) hfits),
        if_neg (UInt64.not_le.mpr hearlier)]
    rw [if_neg hlater, if_pos hearlier]
    exact ⟨rfl, h.idle hlatest fun heq => absurd heq hsame⟩

/-! ## Many polls -/

/-- What a generator recalls lets all polls to come be foreseen. -/
theorem Recalled.pollEach {g : Generator} (h : start.Recalled earlier g) (readings : List UInt64) :
    (g.pollEach readings).1.length = readings.length
      ∧ ∀ i (hi : i < readings.length),
        (g.pollEach readings).1[i]? = some (start.foresee (earlier ++ readings.take i) readings[i]) := by
  induction readings generalizing earlier g with
  | nil => exact ⟨rfl, fun i hi => absurd hi (Nat.not_lt_zero i)⟩
  | cons now later ih =>
    obtain ⟨hresult, hrecalled⟩ := h.poll now
    obtain ⟨hlength, hlater⟩ := ih hrecalled
    refine ⟨congrArg (· + 1) hlength, ?_⟩
    intro i hi
    cases i with
    | zero =>
      rw [List.take_zero, List.append_nil, List.getElem_cons_zero]
      exact congrArg some hresult
    | succ i =>
      rw [List.take_succ_cons, List.append_cons, List.getElem_cons_succ]
      exact hlater i (Nat.lt_of_succ_lt_succ hi)

/-- An identifier that is foreseen shows its reading, its generator's location and its number. -/
theorem shows_of_foresee (hdatacenter : start.datacenter.toNat < 32)
    (hmachine : start.machine.toNat < 32) {id : PackedId}
    (hid : start.foresee earlier now = .ok (.ready id)) :
    id.timestamp = now ∧ id.datacenter = start.datacenter ∧ id.machine = start.machine
      ∧ id.sequence.toNat = start.number earlier now := by
  rw [foresee] at hid
  split at hid
  · cases hid
  split at hid
  · cases hid
  split at hid
  · rename_i hlarge hnumber
    cases hid
    have htoNat := toNat_ofNat_number hnumber
    obtain ⟨ht, hd, hm, hs⟩ := PackedId.fields_pack (UInt64.not_lt.mp hlarge) hdatacenter hmachine
      (htoNat ▸ hnumber)
    exact ⟨ht, hd, hm, (congrArg UInt64.toNat hs).trans htoNat⟩
  · cases hid

/-- What is said of the results of polls at the given readings, one after the other. -/
structure Foreseen (start : Origin) (readings : List UInt64) (results : List (Outcome Poll)) :
    Prop where
  length_eq : results.length = readings.length
  /-- Every poll comes to what the readings before it let foresee. -/
  result_eq : ∀ i (hi : i < readings.length),
    results[i]? = some (start.foresee (readings.take i) readings[i])
  /-- Every identifier shows its reading, the location of the generator and the number due. -/
  shown : ∀ i (hi : i < readings.length) (id : PackedId), results[i]? = some (.ok (.ready id)) →
    id.timestamp = readings[i] ∧ id.datacenter = start.datacenter ∧ id.machine = start.machine
      ∧ id.sequence.toNat = start.number (readings.take i) readings[i]

variable {σ : Type} [TimeSource σ]

/-- **Polls in closed form.** Whatever the clock reads, every poll comes to what the fields that the
generator started from and the readings before it let foresee. -/
theorem attempts_foreseen {g : Generator} (hg : start.generator = .ok g) {clock clock' : σ}
    {readings : List UInt64} (hreads : TimeSource.Reads clock readings clock') :
    ∃ results g', Generator.attempts readings.length (g, clock) = some (results, g', clock')
      ∧ start.Foreseen readings results := by
  have hrecalled := recalled_generator hg
  obtain ⟨hlength, hresults⟩ := hrecalled.pollEach readings
  refine ⟨_, _, Generator.attempts_of_reads hreads g, hlength, hresults, ?_⟩
  intro i hi id hid
  have hdatacenter : start.datacenter.toNat < 32 :=
    hrecalled.datacenter_eq ▸ g.last.toNat_datacenter_lt
  have hmachine : start.machine.toNat < 32 := hrecalled.machine_eq ▸ g.last.toNat_machine_lt
  rw [hresults i hi] at hid
  exact shows_of_foresee hdatacenter hmachine (Option.some.inj hid)

/-- A generator that is almost through with the numbers of the millisecond five. -/
def spentOrigin : Origin := ⟨5, 1, 2, 4094⟩

/-- Readings that stand still, go on, go back and leave the range of timestamps. -/
def wildReadings : List UInt64 := [5, 5, 6, 4, 6, 0x20000000000, 6]

/-- The polls at these readings: the second one finds the numbers of its millisecond used up. -/
theorem attempts_foreseen_spent :
    let source : Nat → UInt64 := fun i => wildReadings.getD i 0
    let g : Generator := ⟨.pack 5 1 2 4094⟩
    spentOrigin.generator = .ok g
      ∧ TimeSource.Reads source wildReadings (fun i => source (i + wildReadings.length))
      ∧ ∃ results g', Generator.attempts wildReadings.length (g, source)
          = some (results, g', fun i => source (i + wildReadings.length))
        ∧ spentOrigin.Foreseen wildReadings results := by
  intro source g
  have hg : spentOrigin.generator = .ok g := rfl
  have hreads := TimeSource.Reads.sequence wildReadings source fun i hi => by simp [source, hi]
  exact ⟨hg, hreads, attempts_foreseen hg hreads⟩

end Origin

end IdMint
