import IdMint.Text.Decimal

/-! # Calendar

Moments in milliseconds since the Unix epoch as dates of the proleptic Gregorian calendar in UTC, and
the digits in which a date is written: year, month, day, hour, minute, second and millisecond, without
anything between them. Years are counted from March so that the leap day comes last; four hundred
years, an era, always have 146097 days. -/

namespace IdMint.Calendar

/-- A date and a time of day. -/
structure Moment where
  year : Int
  month : Nat
  day : Nat
  hour : Nat
  minute : Nat
  second : Nat
  milli : Nat
  deriving DecidableEq, Inhabited, Repr

/-- The milliseconds of a day. -/
def millisPerDay : Int := 86400000

/-- The days from 0000-03-01 to the Unix epoch. -/
def epochShift : Int := 719468

/-- The day of the Unix epoch on which a moment falls. -/
def dayOf (millis : Int) : Int := millis / millisPerDay

/-- The years of an era that have ended before the given day of the era. -/
def yearOfEra (dayOfEra : Nat) : Nat :=
  (dayOfEra - dayOfEra / 1460 + dayOfEra / 36524 - dayOfEra / 146096) / 365

/-- The days of an era in front of a year of the era. -/
def daysBefore (yearOfEra : Nat) : Nat := 365 * yearOfEra + yearOfEra / 4 - yearOfEra / 100

/-- The month, counted from March, of a day of a year that begins in March. -/
def monthFromMarch (dayOfYear : Nat) : Nat := (5 * dayOfYear + 2) / 153

/-- The days of a year that begins in March in front of a month counted from March. -/
def daysBeforeMonth (month : Nat) : Nat := (153 * month + 2) / 5

/-- The year, month and day of a day, counted from the Unix epoch. -/
def dateOf (day : Int) : Int × Nat × Nat :=
  let shifted := day + epochShift
  let era := shifted / 146097
  let dayOfEra := (shifted % 146097).toNat
  let yoe := yearOfEra dayOfEra
  let dayOfYear := dayOfEra - daysBefore yoe
  let m := monthFromMarch dayOfYear
  let month := if m < 10 then m + 3 else m - 9
  let year := era * 400 + yoe + (if month ≤ 2 then 1 else 0)
  (year, month, dayOfYear - daysBeforeMonth m + 1)

/-- The date and time of a moment. -/
def momentOf (millis : Int) : Moment :=
  let (year, month, day) := dateOf (dayOf millis)
  let rest := (millis % millisPerDay).toNat
  ⟨year, month, day, rest / 3600000, rest / 60000 % 60, rest / 1000 % 60, rest % 1000⟩

/-- The years that dates can have. -/
def InRange (year : Int) : Prop := -262143 ≤ year ∧ year ≤ 262142

instance (year : Int) : Decidable (InRange year) := inferInstanceAs (Decidable (_ ∧ _))

/-- The date and time of a moment whose year is in range. -/
def moment? (millis : Int) : Option Moment :=
  let m := momentOf millis
  if InRange m.year then some m else none

/-- A year in digits: four for the years 0 to 9999, otherwise a sign and at least four. -/
def yearText (year : Int) : String :=
  if year < 0 then "-" ++ Decimal.padded 4 year.natAbs
  else if year ≤ 9999 then Decimal.fixed 4 year.toNat
  else "+" ++ Decimal.padded 4 year.toNat

/-- The digits of a date and time. -/
def Moment.text (m : Moment) : String :=
  yearText m.year ++ Decimal.fixed 2 m.month ++ Decimal.fixed 2 m.day ++ Decimal.fixed 2 m.hour
    ++ Decimal.fixed 2 m.minute ++ Decimal.fixed 2 m.second ++ Decimal.fixed 3 m.milli

example : (momentOf 0).text = "19700101000000000" := by cbv
example : (momentOf 951782399999).text = "20000228235959999" := by cbv
example : (momentOf 951868799999).text = "20000229235959999" := by cbv
example : (momentOf (-62167219200001)).text = "-00011231235959999" := by cbv
example : (momentOf 253402300800000).text = "+100000101000000000" := by cbv

end IdMint.Calendar
