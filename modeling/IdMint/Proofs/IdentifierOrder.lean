import IdMint.Proofs.CalendarOrder
import IdMint.Proofs.CounterSuffixes

/-! # The order of counter identifiers

A counter identifier is a date in digits with a counter of a fixed width behind it, and nothing between
them. While years have four digits the whole is one numeral, so identifiers of one width are ordered as
texts by time first and by counter last: `identifiers_in_order`. Years outside have a sign and more
digits, but everything behind the year has a fixed width; so whatever the years, identifiers of one
width agree only at one time and at counters that the width does not tell apart:
`identifiers_collide_iff`. -/

namespace IdMint

open Decimal

namespace Calendar

/-! ## Dates in digits -/

/-- The digits of the fields below the year. -/
def Moment.numberInYear (m : Moment) : Nat :=
  ((((m.month * 100 + m.day) * 100 + m.hour) * 100 + m.minute) * 100 + m.second) * 1000 + m.milli

/-- The digits of a moment are those of its year and those below. -/
theorem Moment.number_eq (m : Moment) : m.number = m.year * 10 ^ 13 + m.numberInYear := by
  unfold number numberInYear
  omega

/-- Below the year, a moment is written in thirteen digits. -/
theorem Moment.Fits.text_eq {m : Moment} (h : m.Fits) :
    m.text = yearText m.year ++ fixed 13 m.numberInYear := by
  obtain ⟨hmonth, hday, hhour, hminute, hsecond, hmilli⟩ := h
  simp only [Moment.text, String.append_assoc, fixed_append_fixed]
  refine congrArg (yearText m.year ++ fixed 13 ·) ?_
  unfold numberInYear
  omega

theorem Moment.Fits.numberInYear_lt {m : Moment} (h : m.Fits) : m.numberInYear < 10 ^ 13 := by
  obtain ⟨hmonth, hday, hhour, hminute, hsecond, hmilli⟩ := h
  unfold numberInYear
  omega

/-- A year of four digits. -/
def IsFourDigit (year : Int) : Prop := 0 ≤ year ∧ year ≤ 9999

/-- In years of four digits, a moment is a numeral of seventeen. -/
theorem Moment.Fits.text_eq_fixed {m : Moment} (h : m.Fits) (hyear : IsFourDigit m.year) :
    m.text = fixed 17 m.number.toNat := by
  have hbelow := h.numberInYear_lt
  obtain ⟨hlow, hhigh⟩ := hyear
  rw [h.text_eq, yearText, if_neg (Int.not_lt.mpr hlow), if_pos hhigh, fixed_append_fixed,
    Nat.mod_eq_of_lt hbelow, m.number_eq]
  refine congrArg (fixed 17) ?_
  omega

/-- A year is read back from its digits and its sign. -/
theorem signed?_yearText (year : Int) : signed? (yearText year).toList = some year := by
  unfold yearText
  split
  · -- before the year 0
    have hvalue : -(year.natAbs : Int) = year := by omega
    rw [String.toList_append, show "-".toList = ['-'] from rfl, List.singleton_append, signed?_minus,
      natural?_padded]
    exact congrArg some hvalue
  split
  · -- four digits
    have hvalue : ((year.toNat % 10 ^ 4 : Nat) : Int) = year := by omega
    rw [signed?_of_isDigit isDigit_of_mem_fixed, natural?_fixed (by decide)]
    exact congrArg some hvalue
  · -- after the year 9999
    have hvalue : (year.toNat : Int) = year := by omega
    rw [String.toList_append, show "+".toList = ['+'] from rfl, List.singleton_append, signed?_plus,
      natural?_padded]
    exact congrArg some hvalue

theorem yearText_injective : Function.Injective yearText := by
  intro y y' h
  have hread : signed? (yearText y).toList = signed? (yearText y').toList := by rw [h]
  rw [signed?_yearText, signed?_yearText] at hread
  exact Option.some.inj hread

/-- Different times have different dates in digits. -/
theorem text_momentOf_injective : Function.Injective fun millis => (momentOf millis).text := by
  intro millis millis' h
  dsimp only at h
  rw [(fits_momentOf millis).text_eq, (fits_momentOf millis').text_eq, append_fixed_inj] at h
  obtain ⟨hyear, hbelow⟩ := h
  rw [Nat.mod_eq_of_lt (fits_momentOf millis).numberInYear_lt,
    Nat.mod_eq_of_lt (fits_momentOf millis').numberInYear_lt] at hbelow
  have hnumber : (momentOf millis).number = (momentOf millis').number := by
    rw [Moment.number_eq, Moment.number_eq, yearText_injective hyear, hbelow]
  exact strictMono_number.injective hnumber

/-- The order of moments is that of their digits, where these have no sign. -/
theorem compare_number {millis millis' : Int} (h : 0 ≤ (momentOf millis).number)
    (h' : 0 ≤ (momentOf millis').number) :
    compare (momentOf millis).number.toNat (momentOf millis').number.toNat
      = compare millis millis' := by
  have hmono {m m' : Int} (hm : 0 ≤ (momentOf m).number) (hlt : m < m') :
      (momentOf m).number.toNat < (momentOf m').number.toNat := by
    have hnumber : (momentOf m).number < (momentOf m').number := strictMono_number hlt
    omega
  rcases lt_trichotomy millis millis' with hlt | rfl | hgt
  · rw [compare_lt_iff_lt.mpr hlt, compare_lt_iff_lt.mpr (hmono h hlt)]
  · rw [compare_eq_iff_eq.mpr rfl, compare_eq_iff_eq.mpr rfl]
  · rw [compare_gt_iff_gt.mpr hgt, compare_gt_iff_gt.mpr (hmono h' hgt)]

/-- The digits of a moment in a year of four digits are a number of seventeen. -/
theorem number_bounds {millis : Int} (h : IsFourDigit (momentOf millis).year) :
    0 ≤ (momentOf millis).number ∧ (momentOf millis).number < 10 ^ 17 := by
  have hbelow := (fits_momentOf millis).numberInYear_lt
  obtain ⟨hlow, hhigh⟩ := h
  rw [Moment.number_eq]
  omega

/-- A year of four digits is in range. -/
theorem IsFourDigit.inRange {year : Int} (h : IsFourDigit year) : InRange year := by
  obtain ⟨hlow, hhigh⟩ := h
  exact ⟨by omega, by omega⟩

end Calendar

namespace Counter

open Calendar

/-! ## Identifiers of one width -/

/-- A time in range has an identifier, which is its date and the counter in digits. -/
theorem identifier_eq_ok {reading : Reading} (h : InRange (momentOf reading.millis).year)
    (length : Nat) :
    identifier reading length
      = .ok ((momentOf reading.millis).text ++ fixed length reading.count.toNat) := by
  have hmoment : moment? reading.millis = some (momentOf reading.millis) := if_pos h
  rw [identifier, hmoment, suffix_eq_fixed]

/-- In a year of four digits, an identifier is one numeral. -/
theorem isNumeral_append_fixed {millis : Int} (h : IsFourDigit (momentOf millis).year)
    (length count : Nat) : IsNumeral (17 + length) ((momentOf millis).text ++ fixed length count) := by
  rw [(fits_momentOf millis).text_eq_fixed h, fixed_append_fixed]
  exact ⟨length_fixed _ _, isDigit_of_mem_fixed⟩

/-- **Identifiers are in order.** In years of four digits, identifiers of one width compare as texts as
their times do, and at one time as the digits of their counters do. -/
theorem identifiers_in_order {r₁ r₂ : Reading} (h₁ : IsFourDigit (momentOf r₁.millis).year)
    (h₂ : IsFourDigit (momentOf r₂.millis).year) (length : Nat) :
    ∃ id₁ id₂, identifier r₁ length = .ok id₁ ∧ identifier r₂ length = .ok id₂
      ∧ compare id₁ id₂ = (compare r₁.millis r₂.millis).then
          (compare (r₁.count.toNat % 10 ^ length) (r₂.count.toNat % 10 ^ length))
      ∧ IsNumeral (17 + length) id₁ ∧ IsNumeral (17 + length) id₂ := by
  refine ⟨_, _, identifier_eq_ok h₁.inRange length, identifier_eq_ok h₂.inRange length, ?_,
    isNumeral_append_fixed h₁ length _, isNumeral_append_fixed h₂ length _⟩
  obtain ⟨hlow₁, hhigh₁⟩ := number_bounds h₁
  obtain ⟨hlow₂, hhigh₂⟩ := number_bounds h₂
  have hdate₁ : (momentOf r₁.millis).number.toNat < 10 ^ 17 := by omega
  have hdate₂ : (momentOf r₂.millis).number.toNat < 10 ^ 17 := by omega
  rw [(fits_momentOf _).text_eq_fixed h₁, (fits_momentOf _).text_eq_fixed h₂, compare_fixed_append,
    compare_fixed, Nat.mod_eq_of_lt hdate₁, Nat.mod_eq_of_lt hdate₂, compare_number hlow₁ hlow₂]

/-- A leap day's last millisecond and the next one, at counters of more digits than the width. -/
theorem identifiers_in_order_leapDay :
    let r₁ : Reading := ⟨951868799999, 99999⟩
    let r₂ : Reading := ⟨951868800000, 120001⟩
    (IsFourDigit (momentOf r₁.millis).year ∧ IsFourDigit (momentOf r₂.millis).year)
      ∧ ∃ id₁ id₂, identifier r₁ 4 = .ok id₁ ∧ identifier r₂ 4 = .ok id₂
        ∧ compare id₁ id₂ = (compare r₁.millis r₂.millis).then
            (compare (r₁.count.toNat % 10 ^ 4) (r₂.count.toNat % 10 ^ 4))
        ∧ IsNumeral (17 + 4) id₁ ∧ IsNumeral (17 + 4) id₂ := by
  intro r₁ r₂
  have h₁ : IsFourDigit (momentOf r₁.millis).year := ⟨by decide, by decide⟩
  have h₂ : IsFourDigit (momentOf r₂.millis).year := ⟨by decide, by decide⟩
  exact ⟨⟨h₁, h₂⟩, identifiers_in_order h₁ h₂ 4⟩

/-- **Collisions.** Identifiers of one width agree only at one time and at counters that agree in the
digits of the width, whatever the signs and lengths of the years. -/
theorem identifiers_collide_iff {r₁ r₂ : Reading} (h₁ : InRange (momentOf r₁.millis).year)
    (h₂ : InRange (momentOf r₂.millis).year) (length : Nat) :
    ∃ id₁ id₂, identifier r₁ length = .ok id₁ ∧ identifier r₂ length = .ok id₂
      ∧ (id₁ = id₂ ↔ r₁.millis = r₂.millis
          ∧ r₁.count.toNat % 10 ^ length = r₂.count.toNat % 10 ^ length) := by
  refine ⟨_, _, identifier_eq_ok h₁ length, identifier_eq_ok h₂ length, ?_⟩
  rw [append_fixed_inj]
  exact and_congr_left fun _ => text_momentOf_injective.eq_iff

/-- A time before the year 0 and one after the year 9999, at counters that the width does
not tell apart. -/
theorem identifiers_collide_iff_signedYears :
    let r₁ : Reading := ⟨-62167219200001, 10⟩
    let r₂ : Reading := ⟨253402300800000, 20⟩
    (InRange (momentOf r₁.millis).year ∧ InRange (momentOf r₂.millis).year)
      ∧ ∃ id₁ id₂, identifier r₁ 1 = .ok id₁ ∧ identifier r₂ 1 = .ok id₂
        ∧ (id₁ = id₂ ↔ r₁.millis = r₂.millis ∧ r₁.count.toNat % 10 ^ 1 = r₂.count.toNat % 10 ^ 1) := by
  intro r₁ r₂
  have h₁ : InRange (momentOf r₁.millis).year := by decide
  have h₂ : InRange (momentOf r₂.millis).year := by decide
  exact ⟨⟨h₁, h₂⟩, identifiers_collide_iff h₁ h₂ 1⟩

end Counter

end IdMint
