import IdMint.Proofs.CounterDraws

/-! # The issuer and the store in memory

An issuer sends its step as a text and reads numbers back from the reply, some of them as texts; the
store in memory does the same from the other side. `Agreement` says that they understand each other: a
call adds the step to its counter and to no other one, and fails without a change where the sum does
not fit. What the reply tells is the new value and the time of the server in whole milliseconds. They
part on times that do not fit 64 bits: these are counted, and read by nobody. -/

namespace IdMint.Counter

open Decimal

/-! ## The counters after a call -/

/-- A counter after one of the counters was set. -/
theorem counter?_insert {τ : Type} (store : MemoryStore τ) (key other : String) (count : Int64)
    (clock : τ) :
    (⟨store.counters.insert key count, clock⟩ : MemoryStore τ).counter? other
      = if key = other then some count else store.counter? other := by
  rw [MemoryStore.counter?, Std.ExtHashMap.getElem?_insert]
  simp only [beq_iff_eq, MemoryStore.counter?]

/-- A counter goes on from zero where it was never touched. -/
theorem value_eq_getD {τ : Type} (store : MemoryStore τ) (key : String) :
    store.counters.value key = (store.counter? key).getD 0 := rfl

/-! ## What a reply tells -/

/-- A reply tells the counter and the time in whole milliseconds, or that the counter is negative. -/
structure ReadsBack (time : Duration) (count : Int64) (reply : List ReplyValue) : Prop where
  nonneg (h : 0 ≤ count.toInt) :
    ∃ reading, readReply reply = .ok reading
      ∧ reading.millis = time.millis ∧ (reading.count.toNat : Int) = count.toInt
  neg (h : count.toInt < 0) :
    readReply reply = .error (.malformedReply ("negative counter " ++ toString count))

/-- The reply is malformed. -/
def Unreadable (_ : Int64) (reply : List ReplyValue) : Prop :=
  ∃ text, readReply reply = .error (.malformedReply text)

/-- A time whose milliseconds fit 64 bits is told by its seconds and microseconds, which fit as well,
as does the time that is made of them. -/
theorem exists_numbers_reply {time : Duration} (h : FitsInt64 time.millis) (count : Int64) :
    ∃ seconds micros millis, Reply.Numbers (MemoryStore.reply time count) seconds micros count
      ∧ wordMillis? seconds micros = some millis ∧ millis.toInt = time.millis := by
  obtain ⟨hlow, hhigh⟩ := h
  rw [Duration.millis] at hhigh
  have hseconds : (Int64.ofInt (time.nanos / 10 ^ 9 : Nat)).toInt = (time.nanos / 10 ^ 9 : Nat) :=
    Int64.toInt_ofInt_of_le (by omega) (by omega)
  have hmicros : (Int64.ofInt (time.nanos % 10 ^ 9 / 1000 : Nat)).toInt
      = (time.nanos % 10 ^ 9 / 1000 : Nat) := Int64.toInt_ofInt_of_le (by omega) (by omega)
  have hmillis : (Int64.ofInt time.millis).toInt = time.millis :=
    Int64.toInt_ofInt_of_le hlow hhigh
  refine ⟨_, _, _, numbers_reply_iff.mpr ⟨hseconds, hmicros, rfl⟩, ?_, hmillis⟩
  rw [wordMillis?_eq_some_iff, hmillis, hseconds, hmicros, millis_of_seconds]
  exact ⟨⟨by omega, by omega⟩, rfl⟩

theorem readsBack_reply {time : Duration} (h : FitsInt64 time.millis) (count : Int64) :
    ReadsBack time count (MemoryStore.reply time count) := by
  obtain ⟨seconds, micros, millis, hnumbers, hword, hmillis⟩ := exists_numbers_reply h count
  have hread : readReply (MemoryStore.reply time count)
      = if count < 0 then .error (.malformedReply ("negative counter " ++ toString count))
        else .ok ⟨millis.toInt, count.toUInt64⟩ := by
    rw [Reply.readReply_of_numbers hnumbers, Reply.ofNumbers, hword]
  have hsign : count < 0 ↔ count.toInt < 0 := by rw [Int64.lt_iff_toInt_lt, Int64.toInt_zero]
  constructor
  · intro hnonneg
    rw [if_neg (mt hsign.mp (Int.not_lt.mpr hnonneg))] at hread
    exact ⟨_, hread, hmillis, toNat_toUInt64_of_nonneg hnonneg⟩
  · intro hneg
    rw [hread, if_pos (hsign.mpr hneg)]

theorem unreadable_reply {time : Duration} (h : ¬ FitsInt64 time.millis) (count : Int64) :
    Unreadable count (MemoryStore.reply time count) := by
  refine (Reply.ok_or_malformed _).resolve_left ?_
  rintro ⟨reading, hreading⟩
  -- a reading would be the time in milliseconds, and in range
  obtain ⟨seconds, micros, _, hnumbers, hrange⟩ := Reply.readReply_eq_ok_iff.mp hreading
  rw [← (readReply_reply hreading).1, hrange.reading_millis] at h
  exact h hrange.sum_fits

/-! ## Calls -/

variable {τ : Type} [ServerClock τ]

/-- An issuer and a store in memory understand each other in one call, and `Told` holds of the reply to
it and the new value of the counter. -/
structure Agreement (store : MemoryStore τ) (key : String) (step : UInt64)
    (Told : Int64 → List ReplyValue → Prop) : Prop where
  /-- An identifier of any width is drawn by this call. -/
  sent {length : UInt64} (h : length ≠ 0) :
    next key step length store
      = (ofAnswer (Store.run (incrementCall key step) store).1 length,
          (Store.run (incrementCall key step) store).2)
  /-- The store reads the argument of the call as the step. -/
  argument : ∃ text value, (incrementCall key step).args = [text] ∧ int64? text = some value
    ∧ value.toInt = step.toNat
  /-- A sum that fits is the new value of the counter. -/
  counted (h : FitsInt64 (((store.counter? key).getD 0).toInt + step.toNat)) :
    ∃ count reply after, Store.run (incrementCall key step) store = (.ok reply, after)
      ∧ count.toInt = ((store.counter? key).getD 0).toInt + step.toNat
      ∧ after.counter? key = some count
      ∧ (∀ other, other ≠ key → after.counter? other = store.counter? other)
      ∧ Told count reply
  /-- Where the sum does not fit, the script fails and all counters stay. -/
  overflow (h : ¬ FitsInt64 (((store.counter? key).getD 0).toInt + step.toNat)) :
    ∃ text after, Store.run (incrementCall key step) store = (.error (.script text), after)
      ∧ ∀ other, after.counter? other = store.counter? other

variable {store : MemoryStore τ} {time : Duration} {key : String} {step : UInt64}

/-- A call whose sum fits is answered by the reply at the present time. -/
theorem run_of_sum (htime : (ServerClock.read store.clock).1 = some time)
    (hfit : step.toNat < 2 ^ 63) {count : Int64}
    (hcount : count.toInt = ((store.counter? key).getD 0).toInt + step.toNat) :
    Store.run (incrementCall key step) store
      = (.ok (MemoryStore.reply time count),
          ⟨store.counters.insert key count, (ServerClock.read store.clock).2⟩) := by
  rw [run_incrementCall hfit, value_eq_getD, toInt64?_eq_some_iff.mpr hcount, htime]
  rfl

/-- Whatever holds of the replies at a time is told by the calls at that time. -/
theorem agreement_of_told {Told : Int64 → List ReplyValue → Prop}
    (htime : (ServerClock.read store.clock).1 = some time) (hkey : key ≠ "") (hpos : 0 < step.toNat)
    (hfit : step.toNat < 2 ^ 63) (htold : ∀ count, Told count (MemoryStore.reply time count)) :
    Agreement store key step Told where
  sent hlength := by
    have hcheck : checkCall key step _ = .ok () := checkCall_eq_ok_iff.mpr ⟨hkey, ⟨hpos, hfit⟩, hlength⟩
    simp only [next, hcheck]
  argument := by
    obtain ⟨value, hread, hvalue⟩ := exists_int64_of_step hfit
    exact ⟨_, value, rfl, hread, hvalue⟩
  counted h := by
    obtain ⟨count, hcount⟩ : ∃ count : Int64,
        count.toInt = ((store.counter? key).getD 0).toInt + step.toNat :=
      ⟨_, Int64.toInt_ofInt_of_le h.1 h.2⟩
    refine ⟨count, _, _, run_of_sum htime hfit hcount, hcount, ?_, ?_, htold count⟩
    · rw [counter?_insert, if_pos rfl]
    · intro other hother
      rw [counter?_insert, if_neg hother.symm]
  overflow h := by
    refine ⟨"increment or decrement would overflow", store, ?_, fun _ => rfl⟩
    rw [run_incrementCall hfit, value_eq_getD, toInt64?_eq_none_iff.mpr h]

/-- **The issuer and the store in memory agree.** They do at every time since the Unix epoch, up to what
can be read from the reply: the time and the counter, while its milliseconds fit 64 bits, and later
nothing. -/
theorem agreement (htime : (ServerClock.read store.clock).1 = some time) (hkey : key ≠ "")
    (hpos : 0 < step.toNat) (hfit : step.toNat < 2 ^ 63) :
    (FitsInt64 time.millis → Agreement store key step (ReadsBack time))
      ∧ (¬ FitsInt64 time.millis → Agreement store key step Unreadable) :=
  ⟨fun h => agreement_of_told htime hkey hpos hfit (readsBack_reply h),
    fun h => agreement_of_told htime hkey hpos hfit (unreadable_reply h)⟩

/-- The greatest step, taken from below zero. -/
theorem agreement_greatestStep :
    Agreement ((MemoryStore.empty (⟨some (.ofParts 1483228800 123456789)⟩ : StoppedClock)).setCounter
        "p:n:k" (-5))
      "p:n:k" greatestStep (ReadsBack (.ofParts 1483228800 123456789)) :=
  (agreement rfl (by decide) (by decide) (by decide)).1 (by decide)

/-- The first time whose milliseconds do not fit 64 bits, though its seconds do: there is a reply, and
nothing is read from it. -/
theorem not_agreement_late :
    (ServerClock.read (⟨some (.ofMillis (2 ^ 63))⟩ : StoppedClock)).1 = some (.ofMillis (2 ^ 63))
      ∧ ¬ Agreement (MemoryStore.empty (⟨some (.ofMillis (2 ^ 63))⟩ : StoppedClock)) "k" 1
          (ReadsBack (.ofMillis (2 ^ 63))) := by
  refine ⟨rfl, fun h => ?_⟩
  have hsum : (((MemoryStore.empty (⟨some (.ofMillis (2 ^ 63))⟩ : StoppedClock)).counter? "k").getD
      0).toInt + (1 : UInt64).toNat = 1 := by
    rw [MemoryStore.counter?, MemoryStore.empty, Std.ExtHashMap.getElem?_empty]
    rfl
  obtain ⟨count, reply, after, hrun, hcount, -, -, htold⟩ := h.counted (hsum ▸ by decide)
  rw [run_of_sum rfl (by decide) hcount] at hrun
  cases hrun
  have hlate : ¬ FitsInt64 (Duration.ofMillis (2 ^ 63)).millis := by decide
  obtain ⟨text, htext⟩ := unreadable_reply hlate count
  obtain ⟨reading, hreading, -⟩ := htold.nonneg (by rw [hcount, hsum]; decide)
  cases hreading.symm.trans htext

end IdMint.Counter
