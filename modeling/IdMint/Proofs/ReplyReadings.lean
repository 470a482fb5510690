import IdMint.Counter.Reply
import IdMint.Proofs.Numerals

/-! # What is read from a reply

A reply tells a time and a counter where it has three elements that tell numbers, and where these
numbers are in range. `Reply.Numbers` and `Reply.InRange` say so without the reader, by the grammar of
numerals and by arithmetic on integers, and `ReadByNumbers` that the reader finds exactly that. It
computes in words of 64 bits, where a product or a sum could overflow. -/

namespace IdMint.Counter

open Decimal

/-! ## Elements -/

/-- The number that an element of a reply tells: its own where it is a number, and where it is a text
the one that the text denotes as a numeral. -/
inductive ReplyValue.Tells : ReplyValue → Int64 → Prop
  | int (value : Int64) : Tells (.int value) value
  | bulk {text : String} {value : Int64} (h : Denotes text.toList value.toInt) :
    Tells (.bulk text) value

theorem ReplyValue.int?_eq_some_iff {value : ReplyValue} {n : Int64} :
    value.int? = some n ↔ value.Tells n := by
  cases value with
  | int own =>
    constructor
    · intro h
      exact Option.some.inj h ▸ .int own
    · intro h
      cases h with
      | int n => rfl
  | bulk text =>
    rw [int?, int64?_eq_some_iff]
    constructor
    · exact .bulk
    · intro h
      cases h with
      | bulk h => exact h

/-- A number in decimal tells itself. -/
theorem ReplyValue.int?_bulk_toString (n : Int64) : (bulk (toString n)).int? = some n := by
  have hread : signed? (toString n).toList = some n.toInt := signed?_toString n.toInt
  rw [int?, int64?_eq_some_iff, ← signed?_eq_some_iff, hread]

/-- The decimal text of a natural number tells the number, if it fits. -/
theorem ReplyValue.tells_toString_iff {n : Nat} {value : Int64} :
    (bulk (toString n)).Tells value ↔ value.toInt = n := by
  rw [← int?_eq_some_iff, int?, int64?_toString, toInt64?_eq_some_iff]

theorem element_eq_ok_iff {value : ReplyValue} {name : String} {n : Int64} :
    element value name = .ok n ↔ value.Tells n := by
  rw [← ReplyValue.int?_eq_some_iff, element]
  cases value.int? with
  | none => exact ⟨nofun, nofun⟩
  | some own => rw [Except.ok.injEq, Option.some.injEq]

/-- An element that tells no number makes the reply malformed. -/
theorem element_cases (value : ReplyValue) (name : String) :
    (∃ n, element value name = .ok n)
      ∨ ∃ text, element value name = .error (.malformedReply text) := by
  unfold element
  cases value.int? with
  | none => exact .inr ⟨_, rfl⟩
  | some n => exact .inl ⟨n, rfl⟩

/-! ## Times -/

/-- A time in milliseconds is there where the seconds and the sum fit 64 bits with a sign, and is what
they come to. -/
theorem millisOf?_eq_some_iff {seconds micros millis : Int64} :
    millisOf? seconds micros = some millis
      ↔ FitsInt64 (1000 * seconds.toInt)
        ∧ millis.toInt = 1000 * seconds.toInt + micros.toInt.tdiv 1000 := by
  rw [millisOf?, Option.bind_eq_bind, Option.bind_eq_some_iff, Int.mul_comm]
  constructor
  · rintro ⟨whole, hwhole, hsum⟩
    rw [toInt64?_eq_some_iff] at hwhole hsum
    rw [← hwhole]
    exact ⟨⟨whole.le_toInt, whole.toInt_lt⟩, hsum⟩
  · rintro ⟨hfits, hmillis⟩
    have hwhole : (Int64.ofInt (1000 * seconds.toInt)).toInt = 1000 * seconds.toInt :=
      Int64.toInt_ofInt_of_le hfits.1 hfits.2
    refine ⟨_, toInt64?_eq_some_iff.mpr hwhole, ?_⟩
    rw [toInt64?_eq_some_iff, hwhole, hmillis]

/-- In words of 64 bits the microseconds are cut toward zero, and that never overflows. -/
theorem toInt_div_thousand (micros : Int64) : (micros / 1000).toInt = micros.toInt.tdiv 1000 :=
  Int64.toInt_div_of_ne_right micros 1000 (by decide)

theorem fitsInt64_mul_iff (a b : Int64) :
    FitsInt64 (a.toInt * b.toInt) ↔ ¬ a.toBitVec.smulOverflow b.toBitVec := by
  simp only [BitVec.smulOverflow, Int64.toInt_toBitVec, FitsInt64, Bool.or_eq_true, decide_eq_true_eq]
  generalize a.toInt * b.toInt = product
  omega

theorem fitsInt64_add_iff (a b : Int64) :
    FitsInt64 (a.toInt + b.toInt) ↔ ¬ a.toBitVec.saddOverflow b.toBitVec := by
  simp only [BitVec.saddOverflow, Int64.toInt_toBitVec, FitsInt64, Bool.or_eq_true, decide_eq_true_eq]
  omega

/-- A time in milliseconds, in words of 64 bits: the product and the sum are used only where they do
not overflow. -/
def wordMillis? (seconds micros : Int64) : Option Int64 :=
  if seconds.toBitVec.smulOverflow (1000 : Int64).toBitVec then none
  else if (seconds * 1000).toBitVec.saddOverflow (micros / 1000).toBitVec then none
  else some (seconds * 1000 + micros / 1000)

/-- A product that does not overflow is the product of the numbers. -/
theorem toInt_mul_of_fits {a b : Int64} (h : FitsInt64 (a.toInt * b.toInt)) :
    (a * b).toInt = a.toInt * b.toInt :=
  BitVec.toInt_mul_of_not_smulOverflow ((fitsInt64_mul_iff a b).mp h)

/-- A sum that does not overflow is the sum of the numbers. -/
theorem toInt_add_of_fits {a b : Int64} (h : FitsInt64 (a.toInt + b.toInt)) :
    (a + b).toInt = a.toInt + b.toInt :=
  BitVec.toInt_add_of_not_saddOverflow ((fitsInt64_add_iff a b).mp h)

theorem wordMillis?_eq_some_iff {seconds micros millis : Int64} :
    wordMillis? seconds micros = some millis
      ↔ FitsInt64 (1000 * seconds.toInt)
        ∧ millis.toInt = 1000 * seconds.toInt + micros.toInt.tdiv 1000 := by
  rw [wordMillis?, Option.ite_none_left_eq_some, Option.ite_none_left_eq_some, ← fitsInt64_mul_iff,
    ← fitsInt64_add_iff, ← toInt_div_thousand, Int.mul_comm 1000, Option.some.injEq]
  refine and_congr_right fun hproduct => ?_
  rw [show (1000 : Int) = (1000 : Int64).toInt from rfl]
  rw [← toInt_mul_of_fits hproduct]
  constructor
  · rintro ⟨hsum, rfl⟩
    exact toInt_add_of_fits hsum
  · intro hmillis
    have hsum : FitsInt64 ((seconds * 1000).toInt + (micros / 1000).toInt) :=
      hmillis ▸ ⟨millis.le_toInt, millis.toInt_lt⟩
    exact ⟨hsum, Int64.toInt_inj.mp (by rw [toInt_add_of_fits hsum, hmillis])⟩

/-- The time is computed in words of 64 bits. -/
theorem millisOf?_eq_wordMillis? (seconds micros : Int64) :
    millisOf? seconds micros = wordMillis? seconds micros :=
  Option.ext fun millis => by rw [millisOf?_eq_some_iff, wordMillis?_eq_some_iff]

/-- A counter that is not negative is the same without a sign. -/
theorem toNat_toUInt64_of_nonneg {count : Int64} (h : 0 ≤ count.toInt) :
    (count.toUInt64.toNat : Int) = count.toInt := by
  have hnonneg : 0 ≤ count := by rwa [Int64.le_iff_toInt_le, Int64.toInt_zero]
  rw [Int64.toNat_toUInt64_of_le hnonneg]
  exact Int.toNat_of_nonneg h

/-! ## Replies -/

namespace Reply

/-- The numbers that the three elements of a reply tell. -/
inductive Numbers : List ReplyValue → (seconds micros count : Int64) → Prop
  | mk {first second third : ReplyValue} {seconds micros count : Int64} (hfirst : first.Tells seconds)
    (hsecond : second.Tells micros) (hthird : third.Tells count) :
    Numbers [first, second, third] seconds micros count

/-- Numbers in range, and the reading that they make up. The microseconds count in whole milliseconds,
cut toward zero. -/
structure InRange (seconds micros count : Int64) (reading : Reading) : Prop where
  seconds_fit : FitsInt64 (1000 * seconds.toInt)
  sum_fits : FitsInt64 (1000 * seconds.toInt + micros.toInt.tdiv 1000)
  count_nonneg : 0 ≤ count.toInt
  reading_millis : reading.millis = 1000 * seconds.toInt + micros.toInt.tdiv 1000
  reading_count : (reading.count.toNat : Int) = count.toInt

/-- What is made of three numbers: the time first, and then the counter. -/
def ofNumbers (seconds micros count : Int64) : Except Fault Reading :=
  match wordMillis? seconds micros with
  | none => .error (.malformedReply ("time out of range: " ++ toString seconds ++ "s"))
  | some millis =>
    if count < 0 then .error (.malformedReply ("negative counter " ++ toString count))
    else .ok ⟨millis.toInt, count.toUInt64⟩

theorem ofNumbers_eq_ok_iff {seconds micros count : Int64} {reading : Reading} :
    ofNumbers seconds micros count = .ok reading ↔ InRange seconds micros count reading := by
  unfold ofNumbers
  constructor
  · intro h
    split at h
    · cases h
    next millis hmillis =>
    split at h
    · cases h
    next hneg =>
    cases h
    obtain ⟨hproduct, hsum⟩ := wordMillis?_eq_some_iff.mp hmillis
    have hnonneg : 0 ≤ count.toInt := by
      rwa [Int64.lt_iff_toInt_lt, Int64.toInt_zero, Int.not_lt] at hneg
    exact ⟨hproduct, hsum ▸ ⟨millis.le_toInt, millis.toInt_lt⟩, hnonneg, hsum,
      toNat_toUInt64_of_nonneg hnonneg⟩
  · rintro ⟨hproduct, hsum, hnonneg, hmillis, hcount⟩
    have htime : (Int64.ofInt reading.millis).toInt = reading.millis :=
      Int64.toInt_ofInt_of_le (hmillis ▸ hsum.1) (hmillis ▸ hsum.2)
    have hword : wordMillis? seconds micros = some (Int64.ofInt reading.millis) :=
      wordMillis?_eq_some_iff.mpr ⟨hproduct, htime.trans hmillis⟩
    have hneg : ¬ count < 0 := by rwa [Int64.lt_iff_toInt_lt, Int64.toInt_zero, Int.not_lt]
    have hsame : count.toUInt64 = reading.count := by
      rw [← UInt64.toNat_inj, ← Int.natCast_inj, toNat_toUInt64_of_nonneg hnonneg, hcount]
    rw [hword]
    show (if count < 0 then _ else Except.ok (⟨_, count.toUInt64⟩ : Reading)) = _
    rw [if_neg hneg, htime, hsame]

theorem ofNumbers_cases (seconds micros count : Int64) :
    (∃ reading, ofNumbers seconds micros count = .ok reading)
      ∨ ∃ text, ofNumbers seconds micros count = .error (.malformedReply text) := by
  unfold ofNumbers
  cases wordMillis? seconds micros with
  | none => exact .inr ⟨_, rfl⟩
  | some millis =>
    by_cases hneg : count < 0
    · exact .inr ⟨_, if_pos hneg⟩
    · exact .inl ⟨_, if_neg hneg⟩

theorem readReply_of_numbers {values : List ReplyValue} {seconds micros count : Int64}
    (h : Numbers values seconds micros count) :
    readReply values = ofNumbers seconds micros count := by
  obtain ⟨hfirst, hsecond, hthird⟩ := h
  simp only [readReply, element_eq_ok_iff.mpr hfirst, element_eq_ok_iff.mpr hsecond,
    element_eq_ok_iff.mpr hthird, millisOf?_eq_wordMillis?]
  rfl

/-- A reply either tells three numbers or is malformed. -/
theorem numbers_or_malformed (values : List ReplyValue) :
    (∃ seconds micros count, Numbers values seconds micros count)
      ∨ ∃ text, readReply values = .error (.malformedReply text) := by
  unfold readReply
  split
  · next first second third =>
    rcases element_cases first "seconds" with ⟨seconds, hfirst⟩ | ⟨text, hfirst⟩
    · rcases element_cases second "microseconds" with ⟨micros, hsecond⟩ | ⟨text, hsecond⟩
      · rcases element_cases third "counter" with ⟨count, hthird⟩ | ⟨text, hthird⟩
        · exact .inl ⟨_, _, _, .mk (element_eq_ok_iff.mp hfirst) (element_eq_ok_iff.mp hsecond)
            (element_eq_ok_iff.mp hthird)⟩
        · exact .inr ⟨text, by rw [hfirst, hsecond, hthird]; rfl⟩
      · exact .inr ⟨text, by rw [hfirst, hsecond]; rfl⟩
    · exact .inr ⟨text, by rw [hfirst]; rfl⟩
  · exact .inr ⟨_, rfl⟩

/-- A reading is there where the elements tell numbers in range. -/
theorem readReply_eq_ok_iff {values : List ReplyValue} {reading : Reading} :
    readReply values = .ok reading
      ↔ ∃ seconds micros count, Numbers values seconds micros count
          ∧ InRange seconds micros count reading := by
  constructor
  · intro h
    rcases numbers_or_malformed values with ⟨seconds, micros, count, hnumbers⟩ | ⟨text, htext⟩
    · rw [readReply_of_numbers hnumbers] at h
      exact ⟨seconds, micros, count, hnumbers, ofNumbers_eq_ok_iff.mp h⟩
    · cases h.symm.trans htext
  · rintro ⟨seconds, micros, count, hnumbers, hrange⟩
    rw [readReply_of_numbers hnumbers]
    exact ofNumbers_eq_ok_iff.mpr hrange

theorem ok_or_malformed (values : List ReplyValue) :
    (∃ reading, readReply values = .ok reading)
      ∨ ∃ text, readReply values = .error (.malformedReply text) := by
  rcases numbers_or_malformed values with ⟨seconds, micros, count, hnumbers⟩ | hmalformed
  · rw [readReply_of_numbers hnumbers]
    exact ofNumbers_cases seconds micros count
  · exact .inr hmalformed

end Reply

/-- What is read from a reply, by the numbers that its elements tell. -/
structure ReadByNumbers (values : List ReplyValue) : Prop where
  /-- There is a reading where the elements tell numbers in range, and it is the one that they make
  up. -/
  ok_iff (reading : Reading) :
    readReply values = .ok reading
      ↔ ∃ seconds micros count, Reply.Numbers values seconds micros count
          ∧ Reply.InRange seconds micros count reading
  /-- All other replies are malformed. -/
  malformed (h : ¬ ∃ seconds micros count reading, Reply.Numbers values seconds micros count
      ∧ Reply.InRange seconds micros count reading) :
    ∃ text, readReply values = .error (.malformedReply text)
  /-- Words of 64 bits suffice to make the reading, as no product and no sum is used that overflows. -/
  words {seconds micros count : Int64} (h : Reply.Numbers values seconds micros count) :
    readReply values = Reply.ofNumbers seconds micros count
  /-- Cutting microseconds to milliseconds does not overflow. -/
  cut (micros : Int64) : (micros / 1000).toInt = micros.toInt.tdiv 1000
  /-- A number in decimal is read as itself. -/
  decimal (value : Int64) : (ReplyValue.bulk (toString value)).int? = some value

/-- Every reply is read by the numbers that its elements tell. -/
theorem readReply_by_numbers (values : List ReplyValue) : ReadByNumbers values where
  ok_iff _ := Reply.readReply_eq_ok_iff
  malformed h := by
    refine (Reply.ok_or_malformed values).resolve_left ?_
    rintro ⟨reading, hreading⟩
    obtain ⟨seconds, micros, count, htells⟩ := Reply.readReply_eq_ok_iff.mp hreading
    exact h ⟨seconds, micros, count, reading, htells⟩
  words := Reply.readReply_of_numbers
  cut := toInt_div_thousand
  decimal := ReplyValue.int?_bulk_toString

-- a plus sign and zeros in front, and microseconds that are cut toward zero
example : readReply [.bulk "+007", .int (-1999), .bulk "12"] = .ok ⟨6999, 12⟩ := rfl

end IdMint.Counter
