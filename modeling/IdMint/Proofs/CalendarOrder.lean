import IdMint.Calendar
import Mathlib

/-! # The order of dates

The fields of a moment, written one behind the other as the digits of one number, ascend with time:
`strictMono_number`. The calendar counts in mixed radices (milliseconds of a day, days of an era), and
the digits in others, which are wide enough for every field; so the proof follows the divisions of the
calendar, and says at each one that what is left over ascends and does not reach the next step. -/

namespace IdMint.Calendar

/-! ## Changing the radix -/

/-- What is made of quotients by `g` and of remainders by `rest` ascends, if the remainders of a
quotient do not reach what the next quotient adds. -/
theorem strictMono_ediv_emod {g rest : Int → Int} {radix step : Int} (hradix : 0 < radix)
    (hstep : 0 ≤ step) (hg : StrictMono g)
    (hrest : ∀ r r', 0 ≤ r → r < r' → r' < radix → rest r < rest r')
    (hspan : ∀ r r', 0 ≤ r → r < radix → 0 ≤ r' → r' < radix → rest r < rest r' + step) :
    StrictMono fun n => g (n / radix) * step + rest (n % radix) := by
  intro n n' h
  have hlow := Int.emod_nonneg n (Int.ne_of_gt hradix)
  have hlow' := Int.emod_nonneg n' (Int.ne_of_gt hradix)
  have hhigh := Int.emod_lt_of_pos n hradix
  have hhigh' := Int.emod_lt_of_pos n' hradix
  dsimp only
  rcases Int.lt_or_eq_of_le (Int.ediv_le_ediv hradix (Int.le_of_lt h)) with hlt | heq
  · have hnext : (g (n / radix) + 1) * step ≤ g (n' / radix) * step :=
      Int.mul_le_mul_of_nonneg_right (hg hlt) hstep
    have hshort := hspan _ _ hlow hhigh hlow' hhigh'
    rw [Int.add_mul, Int.one_mul] at hnext
    omega
  · have hdiv := Int.mul_ediv_add_emod n radix
    have hdiv' := Int.mul_ediv_add_emod n' radix
    rw [heq] at hdiv
    have hless := hrest _ _ hlow (by omega) hhigh'
    rw [heq]
    omega

/-- Digits of one radix in places of another one that is as wide ascend with what they show. -/
theorem strictMono_widen {g : Int → Int} (hg : StrictMono g) {radix step : Int} (hradix : 0 < radix)
    (hwide : radix ≤ step) : StrictMono fun n => g (n / radix) * step + n % radix :=
  strictMono_ediv_emod hradix (by omega) hg (fun r r' _ h _ => h) fun r r' _ _ _ _ => by omega

/-! ## The time of day -/

/-- The digits of a time of day, from hours to milliseconds. -/
def timeDigits (rest : Int) : Int :=
  ((rest / 3600000 * 100 + rest / 60000 % 60) * 100 + rest / 1000 % 60) * 1000 + rest % 1000

theorem strictMono_timeDigits : StrictMono timeDigits := by
  have hminutes : StrictMono fun n : Int => n / 60 * 100 + n % 60 :=
    strictMono_widen strictMono_id (by decide) (by decide)
  have hseconds : StrictMono fun n : Int => (n / 60 / 60 * 100 + n / 60 % 60) * 100 + n % 60 :=
    strictMono_widen hminutes (by decide) (by decide)
  have hmillis : StrictMono fun n : Int =>
      ((n / 1000 / 60 / 60 * 100 + n / 1000 / 60 % 60) * 100 + n / 1000 % 60) * 1000 + n % 1000 :=
    strictMono_widen hseconds (by decide) (by decide)
  -- the calendar divides by the whole of a unit, and not step by step
  have hdivs (rest : Int) : rest / 3600000 = rest / 1000 / 60 / 60
      ∧ rest / 60000 = rest / 1000 / 60 := by
    omega
  intro rest rest' h
  have hlt := hmillis h
  dsimp only at hlt
  rw [timeDigits, timeDigits, (hdivs rest).1, (hdivs rest).2, (hdivs rest').1, (hdivs rest').2]
  exact hlt

/-- A time of day has nine digits. -/
theorem timeDigits_bounds {rest : Int} (hlow : 0 ≤ rest) (hhigh : rest < millisPerDay) :
    0 ≤ timeDigits rest ∧ timeDigits rest < 10 ^ 9 := by
  rw [millisPerDay] at hhigh
  have hhours : 0 ≤ rest / 3600000 ∧ rest / 3600000 < 24 := by omega
  unfold timeDigits
  omega

/-! ## Days of a year that begins in March -/

/-- The day lies in its month. -/
theorem daysBeforeMonth_le (dayOfYear : Nat) :
    daysBeforeMonth (monthFromMarch dayOfYear) ≤ dayOfYear
      ∧ dayOfYear < daysBeforeMonth (monthFromMarch dayOfYear) + 31 := by
  unfold monthFromMarch daysBeforeMonth
  omega

/-- The digits of the month and the day of a day of a year that begins in March. January and February
belong to the next year, which counts ten thousand. -/
def monthDigits (dayOfYear : Nat) : Nat :=
  let m := monthFromMarch dayOfYear
  let day := dayOfYear - daysBeforeMonth m + 1
  if m < 10 then (m + 3) * 100 + day else 10000 + (m - 9) * 100 + day

theorem monthDigits_lt {d d' : Nat} (h : d < d') : monthDigits d < monthDigits d' := by
  have hmonths : monthFromMarch d ≤ monthFromMarch d' :=
    Nat.div_le_div_right (by omega)
  have hday := daysBeforeMonth_le d
  have hday' := daysBeforeMonth_le d'
  unfold monthDigits
  generalize monthFromMarch d = m at hmonths hday ⊢
  generalize monthFromMarch d' = m' at hmonths hday' ⊢
  dsimp only
  rcases Nat.eq_or_lt_of_le hmonths with rfl | hlt
  · generalize daysBeforeMonth m = before at hday hday' ⊢
    split <;> omega
  · generalize daysBeforeMonth m = before at hday ⊢
    generalize daysBeforeMonth m' = before' at hday' ⊢
    split <;> split <;> omega

/-- Every day of a year lies after the last day of the year before, also in years of 366 days. -/
theorem monthDigits_bounds {d : Nat} (h : d ≤ 365) : 301 ≤ monthDigits d ∧ monthDigits d ≤ 10229 := by
  constructor
  · rcases Nat.eq_zero_or_pos d with rfl | hpos
    · decide
    · exact Nat.le_of_lt (Nat.lt_of_le_of_lt (by decide) (monthDigits_lt hpos))
  · rcases Nat.eq_or_lt_of_le h with rfl | hlt
    · decide
    · exact Nat.le_of_lt (Nat.lt_of_lt_of_le (monthDigits_lt hlt) (by decide))

/-! ## Days of an era -/

/-- The last day of an era apart, its centuries are as long as each other. -/
theorem yearOfEra_eq {d : Nat} (h : d < 146096) :
    yearOfEra d = (d - d / 1460 + d / 36524) / 365 := by
  have hlast : d / 146096 = 0 := Nat.div_eq_of_lt h
  rw [yearOfEra, hlast, Nat.sub_zero]

theorem yearOfEra_div_hundred {d : Nat} (h : d < 146096) : yearOfEra d / 100 = d / 36524 := by
  have hcentury : d / 36524 < 4 := by omega
  have hd := Nat.div_add_mod d 36524
  rw [yearOfEra_eq h, Nat.div_div_eq_div_mul]
  generalize d / 36524 = century at hcentury hd
  omega

theorem yearOfEra_lt {d : Nat} (h : d < 146097) : yearOfEra d < 400 := by
  rcases Nat.eq_or_lt_of_le (Nat.le_of_lt_succ h) with rfl | hlt
  · decide
  · have hcentury := yearOfEra_div_hundred hlt
    omega

/-- Years of an era do not go back. -/
theorem yearOfEra_mono {d d' : Nat} (h : d ≤ d') : yearOfEra d ≤ yearOfEra d' := by
  have hera (d : Nat) : d / 146096 = d / 36524 / 4 := by omega
  have hdays : d - d / 1460 ≤ d' - d' / 1460 := by omega
  have hcenturies : d / 36524 ≤ d' / 36524 := Nat.div_le_div_right h
  unfold yearOfEra
  rw [hera, hera]
  refine Nat.div_le_div_right ?_
  generalize d / 36524 = century at hcenturies ⊢
  generalize d' / 36524 = century' at hcenturies ⊢
  have hleap : century - century / 4 ≤ century' - century' / 4 := by omega
  omega

/-- The day lies in its year, of which it is one of at most 366 days. -/
theorem daysBefore_yearOfEra_le {d : Nat} (h : d < 146097) :
    daysBefore (yearOfEra d) ≤ d ∧ d ≤ daysBefore (yearOfEra d) + 365 := by
  rcases Nat.eq_or_lt_of_le (Nat.le_of_lt_succ h) with rfl | hlt
  · decide
  have hcentury : d / 36524 < 4 := by omega
  have hd := Nat.div_add_mod d 36524
  have hyear : 365 * yearOfEra d ≤ d - d / 1460 + d / 36524
      ∧ d - d / 1460 + d / 36524 < 365 * yearOfEra d + 365 := by
    rw [yearOfEra_eq hlt]
    omega
  have hhundred := yearOfEra_div_hundred hlt
  rw [daysBefore, hhundred]
  generalize yearOfEra d = year at hyear hhundred
  generalize d / 36524 = century at hcentury hd hyear hhundred
  -- four years are as long as 1460 days and a leap day, which either is over or is not
  have hleaps : century ≤ d / 1460 := by omega
  have hlow : year / 4 ≤ d / 1460 := by omega
  have hhigh : d / 1460 ≤ year / 4 + 1 := by omega
  omega

/-- The digits of a day of an era. -/
def eraDigits (dayOfEra : Int) : Int :=
  let year := yearOfEra dayOfEra.toNat
  (year * 10000 + monthDigits (dayOfEra.toNat - daysBefore year) : Nat)

theorem eraDigits_lt {r r' : Int} (hlow : 0 ≤ r) (h : r < r') (hhigh : r' < 146097) :
    eraDigits r < eraDigits r' := by
  have hyears : yearOfEra r.toNat ≤ yearOfEra r'.toNat := yearOfEra_mono (by omega)
  have hday := daysBefore_yearOfEra_le (d := r.toNat) (by omega)
  have hday' := daysBefore_yearOfEra_le (d := r'.toNat) (by omega)
  unfold eraDigits
  dsimp only
  rcases Nat.eq_or_lt_of_le hyears with heq | hlt
  · rw [heq] at hday ⊢
    have hless : r.toNat - daysBefore (yearOfEra r'.toNat)
        < r'.toNat - daysBefore (yearOfEra r'.toNat) := by omega
    have hdigits := monthDigits_lt hless
    omega
  · have hmonths := monthDigits_bounds (d := r.toNat - daysBefore (yearOfEra r.toNat)) (by omega)
    have hmonths' := monthDigits_bounds (d := r'.toNat - daysBefore (yearOfEra r'.toNat)) (by omega)
    omega

theorem eraDigits_bounds {r : Int} (hlow : 0 ≤ r) (hhigh : r < 146097) :
    301 ≤ eraDigits r ∧ eraDigits r ≤ 4000229 := by
  have hyear := yearOfEra_lt (d := r.toNat) (by omega)
  have hday := daysBefore_yearOfEra_le (d := r.toNat) (by omega)
  have hmonths := monthDigits_bounds (d := r.toNat - daysBefore (yearOfEra r.toNat)) (by omega)
  unfold eraDigits
  dsimp only
  omega

/-! ## Moments -/

/-- The digits of a date, counted in days from the Unix epoch. -/
def dateDigits (day : Int) : Int :=
  (day + epochShift) / 146097 * 4000000 + eraDigits ((day + epochShift) % 146097)

theorem strictMono_dateDigits : StrictMono dateDigits := by
  have heras : StrictMono fun n : Int => n / 146097 * 4000000 + eraDigits (n % 146097) := by
    refine strictMono_ediv_emod (by decide) (by decide) strictMono_id
      (fun r r' => eraDigits_lt) fun r r' hlow hhigh hlow' hhigh' => ?_
    have hbounds := eraDigits_bounds hlow hhigh
    have hbounds' := eraDigits_bounds hlow' hhigh'
    omega
  exact fun day day' h => heras (Int.add_lt_add_right h epochShift)

/-- The day of an era on which a day falls. -/
def dayOfEra (day : Int) : Nat := ((day + epochShift) % 146097).toNat

/-- The day of a year that begins in March on which a day falls. -/
def dayOfYear (day : Int) : Nat := dayOfEra day - daysBefore (yearOfEra (dayOfEra day))

theorem dayOfYear_le (day : Int) : dayOfYear day ≤ 365 := by
  have hday := daysBefore_yearOfEra_le (d := dayOfEra day) (by unfold dayOfEra; omega)
  unfold dayOfYear
  omega

theorem monthFromMarch_le (day : Int) : monthFromMarch (dayOfYear day) ≤ 11 := by
  have hday := dayOfYear_le day
  unfold monthFromMarch
  omega

/-- A date by the day of the year. -/
theorem dateOf_eq (day : Int) :
    dateOf day =
      let m := monthFromMarch (dayOfYear day)
      let month := if m < 10 then m + 3 else m - 9
      ((day + epochShift) / 146097 * 400 + yearOfEra (dayOfEra day) + (if month ≤ 2 then 1 else 0),
        month, dayOfYear day - daysBeforeMonth m + 1) := rfl

/-- The fields of a date as the digits of one number. -/
theorem digits_dateOf (day : Int) :
    ((dateOf day).1 * 100 + (dateOf day).2.1) * 100 + (dateOf day).2.2 = dateDigits day := by
  have hera : eraDigits ((day + epochShift) % 146097)
      = (yearOfEra (dayOfEra day) * 10000 + monthDigits (dayOfYear day) : Nat) := rfl
  have hmonth := monthFromMarch_le day
  rw [dateOf_eq, dateDigits, hera, monthDigits]
  dsimp only
  generalize monthFromMarch (dayOfYear day) = m at hmonth ⊢
  by_cases hm : m < 10
  · rw [if_pos hm, if_pos hm, if_neg (by omega)]
    omega
  · rw [if_neg hm, if_neg hm, if_pos (by omega)]
    omega

/-- Months and days have two digits. -/
theorem dateOf_lt (day : Int) : (dateOf day).2.1 < 100 ∧ (dateOf day).2.2 < 100 := by
  have hmonth := monthFromMarch_le day
  have hday := daysBeforeMonth_le (dayOfYear day)
  rw [dateOf_eq]
  dsimp only
  generalize monthFromMarch (dayOfYear day) = m at hmonth hday ⊢
  split <;> omega

/-- The fields of a moment as the digits of one number, milliseconds in three digits and the fields
before them in two. -/
def Moment.number (m : Moment) : Int :=
  (((((m.year * 100 + m.month) * 100 + m.day) * 100 + m.hour) * 100 + m.minute) * 100 + m.second) * 1000
    + m.milli

/-- The fields of a moment, one by one. -/
theorem momentOf_eq (millis : Int) :
    momentOf millis =
      let date := dateOf (dayOf millis)
      let rest := (millis % millisPerDay).toNat
      ⟨date.1, date.2.1, date.2.2, rest / 3600000, rest / 60000 % 60, rest / 1000 % 60, rest % 1000⟩ :=
  rfl

/-- The fields below the year fit their places. -/
structure Moment.Fits (m : Moment) : Prop where
  month_lt : m.month < 100
  day_lt : m.day < 100
  hour_lt : m.hour < 100
  minute_lt : m.minute < 100
  second_lt : m.second < 100
  milli_lt : m.milli < 1000

theorem fits_momentOf (millis : Int) : (momentOf millis).Fits := by
  obtain ⟨hmonth, hday⟩ := dateOf_lt (dayOf millis)
  have hrest : (millis % millisPerDay).toNat < 86400000 := by
    have hlt := Int.emod_lt_of_pos millis (show 0 < millisPerDay by decide)
    rw [millisPerDay] at hlt ⊢
    omega
  rw [momentOf_eq]
  constructor <;> dsimp only <;> omega

theorem number_momentOf (millis : Int) :
    (momentOf millis).number
      = dateDigits (millis / millisPerDay) * 10 ^ 9 + timeDigits (millis % millisPerDay) := by
  have hrest : 0 ≤ millis % millisPerDay := Int.emod_nonneg _ (by decide)
  rw [momentOf_eq, ← digits_dateOf, Moment.number, timeDigits, dayOf]
  dsimp only
  generalize millis % millisPerDay = rest at hrest ⊢
  generalize dateOf (millis / millisPerDay) = date
  omega

/-- **Dates ascend.** A later moment has greater digits, through all years before and after the Unix
epoch. -/
theorem strictMono_number : StrictMono fun millis => (momentOf millis).number := by
  simp only [number_momentOf]
  refine strictMono_ediv_emod (by decide) (by decide) strictMono_dateDigits
    (fun r r' _ h _ => strictMono_timeDigits h) fun r r' hlow hhigh hlow' hhigh' => ?_
  have hbounds := timeDigits_bounds hlow hhigh
  have hbounds' := timeDigits_bounds hlow' hhigh'
  omega

end IdMint.Calendar
