/-!
# Dates

A date is a year, a month and a day that exists in that month of the Gregorian calendar, which runs
on in both directions without a gap.  The neighbours of a date are dates; `Date.ofDays` and
`Date.days` count them from the first of January 1970.
-/

set_option autoImplicit false

namespace KeyedRecord.Calendar

/-- Every fourth year is a leap year, but of the full centuries only every fourth. -/
def isLeapYear (year : Int) : Bool :=
  decide (year % 4 = 0) && (decide (year % 100 ≠ 0) || decide (year % 400 = 0))

/-- The number of days of a month. -/
def daysInMonth (year : Int) (month : Nat) : Nat :=
  if month = 2 then if isLeapYear year then 29 else 28
  else if month = 4 ∨ month = 6 ∨ month = 9 ∨ month = 11 then 30
  else 31

theorem daysInMonth_pos (year : Int) (month : Nat) : 1 ≤ daysInMonth year month := by
  unfold daysInMonth; split
  · split <;> omega
  · split <;> omega

/-- A year has the month, and the month the day. -/
def IsDate (year : Int) (month day : Nat) : Prop :=
  1 ≤ month ∧ month ≤ 12 ∧ 1 ≤ day ∧ day ≤ daysInMonth year month

instance (year : Int) (month day : Nat) : Decidable (IsDate year month day) :=
  inferInstanceAs (Decidable (_ ∧ _ ∧ _ ∧ _))

/-- A day of the calendar. -/
structure Date where
  year : Int
  month : Nat
  day : Nat
  isDate : IsDate year month day
  deriving DecidableEq

namespace Date

/-- The date with these numbers, if there is one. -/
def ofNumbers? (year : Int) (month day : Nat) : Option Date :=
  if h : IsDate year month day then some ⟨year, month, day, h⟩ else none

/-- The first of January 1970. -/
def epoch : Date := ⟨1970, 1, 1, by decide⟩

/-! ## Neighbours -/

/-- The day after. -/
def next (d : Date) : Date :=
  if h : d.day < daysInMonth d.year d.month then
    ⟨d.year, d.month, d.day + 1, d.isDate.1, d.isDate.2.1, by omega, h⟩
  else if h : d.month < 12 then
    ⟨d.year, d.month + 1, 1, by omega, h, by omega, daysInMonth_pos _ _⟩
  else ⟨d.year + 1, 1, 1, by omega, by omega, by omega, daysInMonth_pos _ _⟩

/-- The day before. -/
def previous (d : Date) : Date :=
  if h : 1 < d.day then
    ⟨d.year, d.month, d.day - 1, d.isDate.1, d.isDate.2.1, by omega,
      by have := d.isDate.2.2.2; omega⟩
  else if h : 1 < d.month then
    ⟨d.year, d.month - 1, daysInMonth d.year (d.month - 1), by omega,
      by have := d.isDate.2.1; omega, daysInMonth_pos _ _, Nat.le_refl _⟩
  else ⟨d.year - 1, 12, 31, by omega, by omega, by omega, by simp [daysInMonth]⟩

/-- The date that is `n` days away, for `n` of -1, 0 or 1; any other `n` counts by its sign. -/
def shift (d : Date) (n : Int) : Date :=
  if n < 0 then d.previous else if 0 < n then d.next else d

/-! ## Day numbers

The count runs in years from March to February, so that a leap day ends its year.  An era is four
hundred years, after which the calendar repeats. -/

/-- The days of an era. -/
def eraDays : Int := 146097

/-- The day of the count on which 1970 begins. -/
def epochDays : Int := 719468

/-- The number of days from the first of January 1970 to a date. -/
def days (d : Date) : Int :=
  let year := if d.month ≤ 2 then d.year - 1 else d.year
  let yearOfEra := year % 400
  let month : Int := (d.month + 9) % 12
  let dayOfYear := (153 * month + 2) / 5 + d.day - 1
  year / 400 * eraDays + (yearOfEra * 365 + yearOfEra / 4 - yearOfEra / 100 + dayOfYear) - epochDays

/-- The date that is a number of days from the first of January 1970. -/
def ofDays? (n : Int) : Option Date :=
  let count := n + epochDays
  let day := count % eraDays
  let yearOfEra := (day - day / 1460 + day / 36524 - day / 146096) / 365
  let dayOfYear := day - (365 * yearOfEra + yearOfEra / 4 - yearOfEra / 100)
  let month := (5 * dayOfYear + 2) / 153
  let year := yearOfEra + count / eraDays * 400
  ofNumbers? (if 10 ≤ month then year + 1 else year)
    (if 10 ≤ month then month - 9 else month + 3).toNat
    (dayOfYear - (153 * month + 2) / 5 + 1).toNat

end Date

end KeyedRecord.Calendar
