import IdMint.Counter.Issue
import IdMint.Proofs.Batches
import IdMint.Proofs.CounterSuffixes
import IdMint.Proofs.ReplyReadings

/-! # Draws from counters in memory

A draw increments one counter of a store in memory, or leaves the store as it is. The identifier that
it yields is the time of the server in seventeen digits, while the year has four of them, followed by
the counter; so the counter tells identifiers apart that have as many digits for it as it needs. -/

namespace IdMint

open Batch

namespace Counter

/-- What a draw is for: the counter, what is added to it, and the width of its digits. -/
structure Draw where
  key : String
  step : UInt64
  length : UInt64
  deriving DecidableEq

/-! ## Arguments -/

/-- A step passes the check where it is a positive signed number. -/
theorem checkStep_eq_ok_iff {step : UInt64} :
    checkStep step = .ok () ↔ 0 < step.toNat ∧ step.toNat < 2 ^ 63 := by
  -- the check refuses zero and every step that has the top bit set
  have hbad : (step = 0 ∨ greatestStep < step) ↔ ¬ (0 < step.toNat ∧ step.toNat < 2 ^ 63) := by
    rw [← UInt64.toNat_inj, UInt64.lt_iff_toNat_lt]
    simp only [greatestStep, UInt64.toNat_zero, UInt64.reduceToNat]
    omega
  unfold checkStep
  split
  · next h => exact ⟨fun heq => (nomatch heq), fun hgood => absurd hgood (hbad.mp h)⟩
  · next h => exact ⟨fun _ => Decidable.not_not.mp (mt hbad.mpr h), fun _ => rfl⟩

/-- Arguments pass the checks where there is a key, a step that passes its check, and a width. -/
theorem checkCall_eq_ok_iff {key : String} {step length : UInt64} :
    checkCall key step length = .ok ()
      ↔ key ≠ "" ∧ (0 < step.toNat ∧ step.toNat < 2 ^ 63) ∧ length ≠ 0 := by
  rw [← checkStep_eq_ok_iff, ← String.isEmpty_eq_false_iff]
  unfold checkCall CompositeKey.check checkLength
  cases key.isEmpty <;> cases checkStep step <;> by_cases hlength : length = 0 <;>
    simp [hlength, bind, Except.bind]

/-- Arguments that pass the checks have a step that is a positive signed number. -/
theorem step_of_checkCall {key : String} {step length : UInt64}
    (h : checkCall key step length = .ok ()) : 0 < step.toNat ∧ step.toNat < 2 ^ 63 :=
  (checkCall_eq_ok_iff.mp h).2.1

/-- Arguments that are refused hand out nothing. -/
theorem issued_of_checkCall {key : String} {step length : UInt64} {cause : Error}
    (h : checkCall key step length = .error cause) : cause.issued = [] := by
  unfold checkCall CompositeKey.check checkStep checkLength at h
  split at h
  · cases h; rfl
  · split at h
    · cases h; rfl
    · split at h
      · cases h; rfl
      · cases h

/-! ## What a draw does -/

variable {τ : Type} [ServerClock τ]

/-- The answer of the increment script at what the server's clock reads. -/
def answerAt (time? : Option Duration) (count : Int64) : Except Fault (List ReplyValue) :=
  match time? with
  | none => .error (.script "clock is before the unix epoch")
  | some time => .ok (MemoryStore.reply time count)

/-- What a draw can do to a store in memory, and what comes of it. -/
inductive Drawn (draw : Draw) (store : MemoryStore τ) : Outcome String → MemoryStore τ → Prop
  /-- The arguments are refused. -/
  | refused {cause : Error} (hcheck : checkCall draw.key draw.step draw.length = .error cause) :
    Drawn draw store (.error cause) store
  /-- The counter would exceed the signed 64-bit numbers. -/
  | overflow (hcheck : checkCall draw.key draw.step draw.length = .ok ())
      (hlimit : 2 ^ 63 ≤ (store.counters.value draw.key).toInt + draw.step.toNat) :
    Drawn draw store (.error (.store (.script "increment or decrement would overflow"))) store
  /-- The counter is incremented. -/
  | counted {count : Int64} (hcheck : checkCall draw.key draw.step draw.length = .ok ())
      (hcount : count.toInt = (store.counters.value draw.key).toInt + draw.step.toNat) :
    Drawn draw store (ofAnswer (answerAt (ServerClock.read store.clock).1 count) draw.length)
      ⟨store.counters.insert draw.key count, (ServerClock.read store.clock).2⟩

/-- A step that is a signed number travels as a text, and is read back as itself. -/
theorem exists_int64_of_step {step : UInt64} (hstep : step.toNat < 2 ^ 63) :
    ∃ value, Decimal.int64? (toString step) = some value ∧ value.toInt = step.toNat := by
  have hvalue : (Int64.ofInt step.toNat).toInt = step.toNat :=
    Int64.toInt_ofInt_of_le (by omega) (by omega)
  refine ⟨Int64.ofInt step.toNat, ?_, hvalue⟩
  rw [show toString step = toString step.toNat from rfl, Decimal.int64?_toString,
    Decimal.toInt64?_eq_some_iff, hvalue]

/-- The increment script on one counter, for a step that is a signed number. -/
theorem run_incrementCall {step : UInt64} (hstep : step.toNat < 2 ^ 63) (key : String)
    (store : MemoryStore τ) :
    Store.run (incrementCall key step) store =
      match Decimal.toInt64? ((store.counters.value key).toInt + step.toNat) with
      | none => (.error (.script "increment or decrement would overflow"), store)
      | some count => (answerAt (ServerClock.read store.clock).1 count,
          ⟨store.counters.insert key count, (ServerClock.read store.clock).2⟩) := by
  obtain ⟨value, hread, hvalue⟩ := exists_int64_of_step hstep
  show MemoryStore.run (incrementCall key step) store = _
  simp only [incrementCall, MemoryStore.run, MemoryStore.increment, if_true, hread, hvalue]
  cases Decimal.toInt64? ((store.counters.value key).toInt + step.toNat) with
  | none => rfl
  | some count =>
    -- the counter is stored before the clock is read, so also where there is no time
    rcases ServerClock.read store.clock with ⟨_ | time, clock⟩ <;> rfl

/-- A draw whose arguments pass the checks, from a counter of value `base`. -/
theorem next_of_checkCall (draw : Draw) (store : MemoryStore τ) {base : Int64}
    (hcheck : checkCall draw.key draw.step draw.length = .ok ())
    (hbase : store.counters.value draw.key = base) :
    next draw.key draw.step draw.length store =
      match Decimal.toInt64? (base.toInt + draw.step.toNat) with
      | none => (.error (.store (.script "increment or decrement would overflow")), store)
      | some count => (ofAnswer (answerAt (ServerClock.read store.clock).1 count) draw.length,
          ⟨store.counters.insert draw.key count, (ServerClock.read store.clock).2⟩) := by
  simp only [next, hcheck, run_incrementCall (step_of_checkCall hcheck).2, hbase]
  cases Decimal.toInt64? (base.toInt + draw.step.toNat) <;> rfl

/-- Every draw does one of these things. -/
theorem drawn_next {draw : Draw} {store store' : MemoryStore τ} {outcome : Outcome String}
    (h : next draw.key draw.step draw.length store = (outcome, store')) :
    Drawn draw store outcome store' := by
  cases hcheck : checkCall draw.key draw.step draw.length with
  | error cause =>
    simp only [next, hcheck] at h
    cases h
    exact .refused hcheck
  | ok =>
    rw [next_of_checkCall draw store hcheck rfl] at h
    have hlow := (store.counters.value draw.key).le_toInt
    cases hcount : Decimal.toInt64? ((store.counters.value draw.key).toInt + draw.step.toNat) with
    | none =>
      rw [hcount] at h
      cases h
      refine .overflow hcheck ?_
      have hout := Decimal.toInt64?_eq_none_iff.mp hcount
      unfold Decimal.FitsInt64 at hout
      omega
    | some count =>
      rw [hcount] at h
      cases h
      exact .counted hcheck (Decimal.toInt64?_eq_some_iff.mp hcount)

/-! ## What an identifier is made of -/

/-- The numbers that a reply of the increment script tells. -/
theorem numbers_reply_iff {time : Duration} {value seconds micros count : Int64} :
    Reply.Numbers (MemoryStore.reply time value) seconds micros count
      ↔ seconds.toInt = (time.nanos / 10 ^ 9 : Nat) ∧ micros.toInt = (time.nanos % 10 ^ 9 / 1000 : Nat)
        ∧ count = value := by
  constructor
  · intro h
    cases h with
    | mk hseconds hmicros hcount =>
      cases hcount
      exact ⟨ReplyValue.tells_toString_iff.mp hseconds, ReplyValue.tells_toString_iff.mp hmicros, rfl⟩
  · rintro ⟨hseconds, hmicros, rfl⟩
    exact .mk (ReplyValue.tells_toString_iff.mpr hseconds) (ReplyValue.tells_toString_iff.mpr hmicros)
      (.int count)

/-- The seconds and microseconds of a time come to its whole milliseconds. -/
theorem millis_of_seconds (time : Duration) :
    1000 * ((time.nanos / 10 ^ 9 : Nat) : Int) + ((time.nanos % 10 ^ 9 / 1000 : Nat) : Int).tdiv 1000
      = time.millis := by
  rw [Int.tdiv_eq_ediv_of_nonneg (Int.natCast_nonneg _), Duration.millis]
  omega

/-- What is read from a reply of the increment script is the time in whole milliseconds and the
counter, which is not negative. -/
theorem readReply_reply {time : Duration} {count : Int64} {reading : Reading}
    (h : readReply (MemoryStore.reply time count) = .ok reading) :
    reading.millis = time.millis ∧ 0 ≤ count.toInt ∧ reading.count.toNat = count.toInt.toNat := by
  obtain ⟨seconds, micros, _, hnumbers, hrange⟩ := Reply.readReply_eq_ok_iff.mp h
  obtain ⟨hseconds, hmicros, rfl⟩ := numbers_reply_iff.mp hnumbers
  refine ⟨?_, hrange.count_nonneg, ?_⟩
  · rw [hrange.reading_millis, hseconds, hmicros, millis_of_seconds]
  · rw [← hrange.reading_count, Int.toNat_natCast]

/-- A date that is there is the date of the time. -/
theorem eq_of_moment? {millis : Int} {m : Calendar.Moment}
    (h : Calendar.moment? millis = some m) : m = Calendar.momentOf millis := by
  obtain ⟨-, heq⟩ := Option.ite_none_right_eq_some.mp h
  exact (Option.some.inj heq).symm

/-- An identifier is the date of the server's time followed by the counter. -/
theorem eq_of_ofAnswer {time? : Option Duration} {count : Int64} {length : UInt64} {id : String}
    (h : ofAnswer (answerAt time? count) length = .ok id) :
    0 ≤ count.toInt ∧ ∃ time, time? = some time
      ∧ id = (Calendar.momentOf time.millis).text ++ Decimal.fixed length.toNat count.toInt.toNat := by
  unfold ofAnswer at h
  split at h
  · next answered hid =>
    cases h
    cases time? with
    | none => cases hid
    | some time =>
      simp only [answerAt, bind, Except.bind] at hid
      split at hid
      · cases hid
      next reading hreading =>
      obtain ⟨hmillis, hpos, hcount⟩ := readReply_reply hreading
      unfold identifier at hid
      rw [hmillis] at hid
      split at hid
      · next moment hmoment =>
        cases hid
        exact ⟨hpos, time, rfl, by rw [suffix_eq_fixed, hcount, eq_of_moment? hmoment]⟩
      · cases hid
  · cases h

/-- A date whose year has four digits has seventeen. -/
theorem length_text {m : Calendar.Moment} (hlow : 0 ≤ m.year) (hhigh : m.year ≤ 9999) :
    m.text.length = 17 := by
  have hyear : (Calendar.yearText m.year).length = 4 := by
    rw [Calendar.yearText, if_neg (by omega), if_pos hhigh, Decimal.length_fixed]
  simp only [Calendar.Moment.text, String.length_append, Decimal.length_fixed, hyear]

/-- Behind dates of seventeen digits, counters that fit their widths tell identifiers apart. -/
theorem count_eq_of_text_eq {date date' : String} {length length' : Nat} {count count' : Nat}
    (hdate : date.length = 17) (hdate' : date'.length = 17)
    (hcount : count < 10 ^ length) (hcount' : count' < 10 ^ length')
    (h : date ++ Decimal.fixed length count = date' ++ Decimal.fixed length' count') :
    count = count' := by
  have hlength := congrArg String.length h
  rw [String.length_append, String.length_append, Decimal.length_fixed, Decimal.length_fixed,
    hdate, hdate'] at hlength
  -- dates of one length leave one width to the counters, so the texts split at one place
  obtain rfl : length = length' := Nat.add_left_cancel hlength
  have hmod := (Decimal.append_fixed_inj.mp h).2
  rwa [Nat.mod_eq_of_lt hcount, Nat.mod_eq_of_lt hcount'] at hmod

/-! ## What follows for every draw -/

/-- The value of a counter after one of the counters was set. -/
theorem value_insert (counters : Counters) (key key' : String) (count : Int64) :
    Counters.value (counters.insert key count) key'
      = if key = key' then count else counters.value key' := by
  rw [Counters.value, Std.ExtHashMap.getElem?_insert]
  by_cases hkey : key = key'
  · rw [if_pos (beq_iff_eq.mpr hkey), if_pos hkey]
    rfl
  · rw [if_neg (fun heq => hkey (beq_iff_eq.mp heq)), if_neg hkey]
    rfl

@[simp] theorem value_insert_self (counters : Counters) (key : String) (count : Int64) :
    Counters.value (counters.insert key count) key = count := by
  rw [value_insert, if_pos rfl]

/-- An answer that leads to no identifier hands out nothing. -/
theorem issued_of_ofAnswer {answer : Except Fault (List ReplyValue)} {length : UInt64} {cause : Error}
    (h : ofAnswer answer length = .error cause) : cause.issued = [] := by
  unfold ofAnswer at h
  split at h
  · cases h
  · cases h
    rfl

namespace Drawn

variable {draw : Draw} {store store' : MemoryStore τ} {outcome : Outcome String}

/-- A draw that fails hands out nothing. -/
theorem plain (h : Drawn draw store outcome store') : Plain outcome := by
  intro cause hfail
  cases h with
  | refused hcheck => exact issued_of_checkCall (Except.error.inj hfail ▸ hcheck)
  | overflow hcheck hlimit => cases hfail; rfl
  | counted hcheck hcount => exact issued_of_ofAnswer hfail

/-- No counter goes back. -/
theorem value_le (h : Drawn draw store outcome store') (key : String) :
    (store.counters.value key).toInt ≤ (store'.counters.value key).toInt := by
  cases h with
  | refused hcheck => exact Int.le_refl _
  | overflow hcheck hlimit => exact Int.le_refl _
  | counted hcheck hcount =>
    show _ ≤ (Counters.value (store.counters.insert draw.key _) key).toInt
    rw [value_insert]
    by_cases hkey : draw.key = key
    · rw [if_pos hkey, hcount, hkey]
      omega
    · exact Int.le_of_eq (by rw [if_neg hkey])

/-- A draw that succeeds adds its step to the counter, and shows the new value behind the date. -/
theorem of_ok {id : String} (h : Drawn draw store (.ok id) store') :
    0 < draw.step.toNat
      ∧ (store'.counters.value draw.key).toInt
          = (store.counters.value draw.key).toInt + draw.step.toNat
      ∧ ∃ time, (ServerClock.read store.clock).1 = some time
          ∧ id = (Calendar.momentOf time.millis).text
              ++ Decimal.fixed draw.length.toNat (store'.counters.value draw.key).toInt.toNat
          ∧ 0 ≤ (store'.counters.value draw.key).toInt := by
  -- the outcome has to be a variable where the cases of a draw are told apart
  generalize hok : (.ok id : Outcome String) = outcome at h
  cases h with
  | refused hcheck => cases hok
  | overflow hcheck hlimit => cases hok
  | @counted count hcheck hcount =>
    obtain ⟨hpos, time, htime, hid⟩ := eq_of_ofAnswer hok.symm
    rw [value_insert_self]
    exact ⟨(step_of_checkCall hcheck).1, hcount, time, htime, hid, hpos⟩

/-- A draw that would overflow the counter fails and changes nothing. -/
theorem of_overflow (h : Drawn draw store outcome store')
    (hlimit : 2 ^ 63 ≤ (store.counters.value draw.key).toInt + draw.step.toNat) :
    (∃ cause, outcome = .error cause) ∧ store' = store := by
  cases h with
  | refused hcheck => exact ⟨⟨_, rfl⟩, rfl⟩
  | overflow hcheck hlimit => exact ⟨⟨_, rfl⟩, rfl⟩
  | counted hcheck hcount =>
    rw [← hcount] at hlimit
    exact absurd hlimit (Int.not_le.mpr (Int64.toInt_lt _))

end Drawn

end Counter

end IdMint
