import Mathlib.Data.Int.Init
import Mathlib.Tactic.IntervalCases
import KeyedRecord.Calendar.Date

/-!
# Counting days

The day number of a date counts from the first of January 1970, one more for the day after and one
less for the day before, so every integer is the number of a day: `days_next`, `days_previous`,
`exists_days_eq`.  The date is found from its number: `ofDays?_days`, and so `ofDays?_eq_some_iff`.

A year of the count begins in March.  It is number `marchYear`, its months are numbered from zero,
and a leap day is the last of its days.
-/

set_option autoImplicit false

namespace KeyedRecord.Calendar

theorem isLeapYear_iff {year : Int} :
    isLeapYear year = true ↔ year % 4 = 0 ∧ (year % 100 ≠ 0 ∨ year % 400 = 0) := by
  simp [isLeapYear]

namespace Date

/-! ## Years from March to February -/

/-- The year of the count that a month of a year lies in. -/
def marchYear (year : Int) (month : Nat) : Int := if month ≤ 2 then year - 1 else year

/-- The days of a year of the count that lie before its months, which are numbered from zero. -/
def monthStart (month : Int) : Int := (153 * month + 2) / 5

/-- The day of the year of the count, from zero. -/
def marchDay (month day : Nat) : Int := monthStart ((month + 9) % 12) + day - 1

/-- The days from the first of March of the year zero to the first of March of a year. -/
def yearStart (year : Int) : Int := 365 * year + year / 4 - year / 100 + year / 400

theorem days_eq (d : Date) :
    d.days = yearStart (marchYear d.year d.month) + marchDay d.month d.day - epochDays := by
  generalize hy : marchYear d.year d.month = y
  have hdays : d.days = y / 400 * eraDays + (y % 400 * 365 + y % 400 / 4 - y % 400 / 100 +
      marchDay d.month d.day) - epochDays := by rw [← hy]; rfl
  rw [hdays]
  unfold eraDays yearStart
  omega

/-- A year of the count ends with the February of the next year. -/
theorem yearStart_eq (year : Int) :
    yearStart year = yearStart (year - 1) + if isLeapYear year then 366 else 365 := by
  unfold yearStart
  split
  · rename_i hl
    rw [isLeapYear_iff] at hl
    omega
  · rename_i hl
    rw [isLeapYear_iff] at hl
    omega

/-- Months other than February are as long as the start of the next one says. -/
theorem daysInMonth_eq (year : Int) {month : Nat} (h1 : 1 ≤ month) (h12 : month ≤ 12)
    (h2 : month ≠ 2) : (daysInMonth year month : Int) =
      monthStart ((month + 9) % 12 + 1) - monthStart ((month + 9) % 12) := by
  interval_cases month <;> first | rfl | exact absurd rfl h2

theorem daysInMonth_february (year : Int) :
    daysInMonth year 2 = if isLeapYear year then 29 else 28 := rfl

/-- The year has room for its days, and three hundred and sixty-six only if it ends in a leap day.
-/
theorem marchDay_bounds (d : Date) : 0 ≤ marchDay d.month d.day ∧ marchDay d.month d.day ≤ 365 ∧
    (marchDay d.month d.day = 365 → isLeapYear (marchYear d.year d.month + 1) = true) := by
  obtain ⟨h1, h12, hd1, hd⟩ := d.isDate
  unfold marchDay
  by_cases h2 : d.month = 2
  · have hyear : marchYear d.year d.month + 1 = d.year := by
      rw [marchYear, h2, if_pos (Nat.le_refl 2)]
      omega
    have hstart : monthStart ((d.month + 9) % 12) = 337 := by rw [h2]; rfl
    rw [h2, daysInMonth_february] at hd
    rw [hyear, hstart]
    split at hd
    · rename_i hl
      exact ⟨by omega, by omega, fun _ => hl⟩
    · exact ⟨by omega, by omega, fun h => by omega⟩
  · have hlen := daysInMonth_eq d.year h1 h12 h2
    have hnext : monthStart ((d.month + 9) % 12 + 1) ≤ 337 := by
      unfold monthStart
      omega
    have hstart : 0 ≤ monthStart ((d.month + 9) % 12) := by
      unfold monthStart
      omega
    exact ⟨by omega, by omega, fun h => by omega⟩

/-- January and February are the end of the year of the count, the other months its beginning. -/
theorem marchYear_cases (d : Date) :
    marchYear d.year d.month = d.year - 1 ∧ 306 ≤ marchDay d.month d.day ∨
      marchYear d.year d.month = d.year ∧ marchDay d.month d.day < 306 := by
  obtain ⟨h1, h12, hd1, hd⟩ := d.isDate
  unfold marchDay
  by_cases h2 : d.month ≤ 2
  · refine .inl ⟨if_pos h2, ?_⟩
    unfold monthStart
    omega
  · refine .inr ⟨if_neg h2, ?_⟩
    have hlen := daysInMonth_eq d.year h1 h12 (by omega)
    have hnext : monthStart ((d.month + 9) % 12 + 1) ≤ 306 := by
      unfold monthStart
      omega
    omega

/-! ## Neighbours -/

/-- The day after is the next of the month, the first of the next month, or the first of January. -/
theorem next_cases (d : Date) :
    (d.next.year = d.year ∧ d.next.month = d.month ∧ d.next.day = d.day + 1) ∨
    (d.day = daysInMonth d.year d.month ∧ d.month < 12 ∧
      d.next.year = d.year ∧ d.next.month = d.month + 1 ∧ d.next.day = 1) ∨
    (d.day = 31 ∧ d.month = 12 ∧ d.next.year = d.year + 1 ∧ d.next.month = 1 ∧ d.next.day = 1) := by
  obtain ⟨h1, h12, hd1, hd⟩ := d.isDate
  unfold next
  split
  · exact .inl ⟨rfl, rfl, rfl⟩
  · split
    · rename_i hm
      exact .inr (.inl ⟨by omega, hm, rfl, rfl, rfl⟩)
    · have hm : d.month = 12 := by omega
      have hlen : daysInMonth d.year d.month = 31 := by rw [hm]; rfl
      exact .inr (.inr ⟨by omega, hm, rfl, rfl, rfl⟩)

/-- The day before is the previous of the month, the last of the previous month, or the last of
December. -/
theorem previous_cases (d : Date) :
    (d.day = d.previous.day + 1 ∧ d.previous.year = d.year ∧ d.previous.month = d.month) ∨
    (d.day = 1 ∧ d.month = d.previous.month + 1 ∧ d.previous.year = d.year ∧
      d.previous.day = daysInMonth d.year d.previous.month) ∨
    (d.day = 1 ∧ d.month = 1 ∧ d.year = d.previous.year + 1 ∧ d.previous.month = 12 ∧
      d.previous.day = 31) := by
  obtain ⟨h1, h12, hd1, hd⟩ := d.isDate
  unfold previous
  split
  · exact .inl ⟨by dsimp only; omega, rfl, rfl⟩
  · split
    · exact .inr (.inl ⟨by omega, by dsimp only; omega, rfl, rfl⟩)
    · exact .inr (.inr ⟨by omega, by omega, by dsimp only; omega, rfl, rfl⟩)

theorem days_next (d : Date) : d.next.days = d.days + 1 := by
  obtain ⟨h1, h12, hd1, hd⟩ := d.isDate
  rw [days_eq, days_eq]
  rcases d.next_cases with ⟨hy, hm, hday⟩ | ⟨hlast, hlt, hy, hm, hday⟩ | ⟨hlast, h12, hy, hm, hday⟩
  · rw [hy, hm, hday]
    unfold marchDay
    omega
  · rw [hy, hm, hday]
    by_cases h2 : d.month = 2
    · -- From February to March the year of the count changes, with a leap day or without.
      rw [h2, daysInMonth_february] at hlast
      rw [h2, hlast]
      change yearStart d.year + 0 - epochDays =
        yearStart (d.year - 1) +
          (337 + ((if isLeapYear d.year then 29 else 28 : Nat) : Int) - 1) - epochDays + 1
      rw [yearStart_eq d.year]
      split <;> omega
    · have hlen := daysInMonth_eq d.year h1 h12 h2
      have hyear : marchYear d.year (d.month + 1) = marchYear d.year d.month := by
        unfold marchYear
        split <;> split <;> omega
      have hmonth : ((d.month + 1 : Nat) + 9 : Int) % 12 = ((d.month : Int) + 9) % 12 +
        1 := by omega
      unfold marchDay
      rw [hyear, hmonth]
      omega
  · rw [hy, hm, hday, h12, hlast]
    change yearStart (d.year + 1 - 1) + 306 - epochDays = yearStart d.year + 305 - epochDays + 1
    rw [Int.add_sub_cancel]
    omega

theorem eq_of_numbers {d e : Date} (hy : d.year = e.year) (hm : d.month = e.month)
    (hd : d.day = e.day) : d = e := by
  cases d
  cases e
  cases hy
  cases hm
  cases hd
  rfl

theorem next_previous (d : Date) : d.previous.next = d := by
  obtain ⟨h1, h12, hd1, hd⟩ := d.isDate
  generalize hp : d.previous = p
  have hcases := d.previous_cases
  obtain ⟨hn1, hn12, hnd1, hnd⟩ := p.next.isDate
  rw [hp] at hcases
  rcases p.next_cases with ⟨hy, hm, hday⟩ | ⟨hlast, hlt, hy, hm, hday⟩ | ⟨hlast, hlt, hy, hm, hday⟩
  · rw [hy, hm, hday] at hnd
    rcases hcases with ⟨h, hy', hm'⟩ | ⟨h, h', hy', hday'⟩ | ⟨h, h', hy', hm', hday'⟩
    · exact eq_of_numbers (hy.trans hy') (hm.trans hm') (hday.trans h.symm)
    · rw [hday', hy'] at hnd
      omega
    · rw [hday', hm'] at hnd
      exact absurd hnd (Nat.not_succ_le_self 31)
  · rcases hcases with ⟨h, hy', hm'⟩ | ⟨h, h', hy', hday'⟩ | ⟨h, h', hy', hm', hday'⟩
    · rw [h, hlast, hy', hm'] at hd
      omega
    · exact eq_of_numbers (hy.trans hy') (hm.trans h'.symm) (hday.trans h.symm)
    · omega
  · rcases hcases with ⟨h, hy', hm'⟩ | ⟨h, h', hy', hday'⟩ | ⟨h, h', hy', hm', hday'⟩
    · rw [h, hlast, ← hm', hlt] at hd
      exact absurd hd (Nat.not_succ_le_self 31)
    · omega
    · exact eq_of_numbers (hy.trans hy'.symm) (hm.trans h'.symm) (hday.trans h.symm)

theorem days_previous (d : Date) : d.previous.days = d.days - 1 := by
  have h := d.previous.days_next
  rw [next_previous] at h
  omega

/-- Every integer is the number of a day. -/
theorem exists_days_eq (n : Int) : ∃ d : Date, d.days = n := by
  induction n using Int.induction_on with
  | zero => exact ⟨epoch, by decide⟩
  | succ n ih =>
    obtain ⟨d, hd⟩ := ih
    exact ⟨d.next, by rw [days_next, hd]⟩
  | pred n ih =>
    obtain ⟨d, hd⟩ := ih
    exact ⟨d.previous, by rw [days_previous, hd]⟩

/-! ## From the number to the date -/

section

variable {year day n : Int}

/-- A day of a year of an era: a year with a day more than usual is every fourth, but of the full
centuries only the last. -/
structure InEra (year day : Int) : Prop where
  year_nonneg : 0 ≤ year
  year_lt : year < 400
  day_nonneg : 0 ≤ day
  day_le : day ≤ 365
  leap : day = 365 → year % 4 = 3 ∧ (year % 100 = 99 → year = 399)

/-- Centuries have one length, but the last day of the era, which would begin a fifth. -/
theorem InEra.century (h : InEra year day) (hn : n = 365 * year + year / 4 - year / 100 + day) :
    0 ≤ n ∧ n < eraDays ∧ n / 36524 - n / 146096 = year / 100 := by
  obtain ⟨hy0, hy, hd0, hd, hl⟩ := h
  unfold eraDays
  have hcentury : n = 36524 * (year / 100) + (365 * (year % 100) + year % 100 / 4 + day) := by omega
  have hcases : 365 * (year % 100) + year % 100 / 4 + day < 36524 ∨ year = 399 ∧ day = 365 := by
    omega
  rcases hcases with hlt | ⟨rfl, rfl⟩
  · generalize 365 * (year % 100) + year % 100 / 4 + day = m at hcentury hlt
    have hm : 0 ≤ m := by omega
    have h1 : n / 36524 = year / 100 := by omega
    have h2 : n / 146096 = 0 := by omega
    omega
  · omega

/-- The year of a day of an era. -/
theorem InEra.year_eq (h : InEra year day) (hn : n = 365 * year + year / 4 - year / 100 + day) :
    (n - n / 1460 + n / 36524 - n / 146096) / 365 = year := by
  obtain ⟨-, -, hcentury⟩ := h.century hn
  obtain ⟨hy0, hy, hd0, hd, hl⟩ := h
  -- The leap days before the day, and perhaps one more if the year is a leap year.
  have h1 : year / 4 ≤ n / 1460 := by omega
  have h2 : n / 1460 ≤ year / 4 + day := by omega
  have h3 : year / 4 + day - 364 ≤ n / 1460 := by omega
  omega

/-- The month of a day of a year of the count. -/
theorem month_eq {month : Int} (h0 : monthStart month ≤ day) (h1 : day < monthStart (month + 1)) :
    (5 * day + 2) / 153 = month := by
  unfold monthStart at h0 h1
  omega

end

theorem inEra (d : Date) : InEra (marchYear d.year d.month % 400) (marchDay d.month d.day) := by
  obtain ⟨h0, h365, hleap⟩ := d.marchDay_bounds
  refine ⟨by omega, by omega, h0, h365, fun h => ?_⟩
  have hl := isLeapYear_iff.mp (hleap h)
  omega

/-- The month of the count has room for the day. -/
theorem marchDay_lt (d : Date) :
    marchDay d.month d.day < monthStart (((d.month : Int) + 9) % 12 + 1) := by
  obtain ⟨h1, h12, hd1, hd⟩ := d.isDate
  unfold marchDay
  by_cases h2 : d.month = 2
  · rw [h2, daysInMonth_february] at hd
    rw [h2]
    change 337 + (d.day : Int) - 1 < 367
    split at hd <;> omega
  · have hlen := daysInMonth_eq d.year h1 h12 h2
    omega

/-- The numbers of a date from those of the count. -/
theorem numbers_of_march (d : Date) {month : Int} (h : ((d.month : Int) + 9) % 12 = month) :
    (if 10 ≤ month then marchYear d.year d.month + 1 else marchYear d.year d.month) = d.year ∧
    (if 10 ≤ month then month - 9 else month + 3).toNat = d.month ∧
    (marchDay d.month d.day - monthStart month + 1).toNat = d.day := by
  obtain ⟨h1, h12, -, -⟩ := d.isDate
  subst h
  refine ⟨?_, ?_, ?_⟩
  · unfold marchYear
    split <;> split <;> omega
  · split <;> omega
  · unfold marchDay
    omega

/-- **A date is found from its day number.** -/
theorem ofDays?_days (d : Date) : ofDays? d.days = some d := by
  generalize hm : ((d.month : Int) + 9) % 12 = month
  obtain ⟨hyear, hmonth, hday⟩ := d.numbers_of_march hm
  generalize hy : marchYear d.year d.month = y at hyear
  generalize hn : 365 * (y % 400) + y % 400 / 4 - y % 400 / 100 + marchDay d.month d.day = n
  have hera : InEra (y % 400) (marchDay d.month d.day) := hy ▸ d.inEra
  obtain ⟨hn0, hn1, -⟩ := hera.century hn.symm
  have hcount : d.days + epochDays = y / 400 * eraDays + n := by
    rw [days_eq, hy, ← hn]
    unfold yearStart eraDays
    omega
  have hquot : (d.days + epochDays) / eraDays = y / 400 := by
    rw [hcount]
    unfold eraDays at hn1 ⊢
    omega
  have hrem : (d.days + epochDays) % eraDays = n := by
    rw [hcount]
    unfold eraDays at hn1 ⊢
    omega
  have hera' : y % 400 + y / 400 * 400 = y := by omega
  have hrest : n - (365 * (y % 400) + y % 400 / 4 - y % 400 / 100) =
    marchDay d.month d.day := by omega
  have hindex : (5 * marchDay d.month d.day + 2) / 153 = month := by
    subst hm
    refine month_eq ?_ d.marchDay_lt
    have hd := d.isDate.2.2.1
    unfold marchDay
    omega
  unfold ofDays?
  simp only [hquot, hrem, hera.year_eq hn.symm, hrest, hindex, hera', hyear, hmonth]
  rw [show (153 * month + 2) / 5 = monthStart month from rfl, hday]
  exact dif_pos d.isDate

theorem ofDays?_eq_some_iff {n : Int} {d : Date} : ofDays? n = some d ↔ d.days = n := by
  constructor
  · intro h
    obtain ⟨e, rfl⟩ := exists_days_eq n
    rw [ofDays?_days] at h
    rw [Option.some.inj h]
  · rintro rfl
    exact ofDays?_days d

/-! ## Years by day numbers -/

theorem yearStart_add_le {a b : Int} (h : a ≤ b) : yearStart a + 365 * (b - a) ≤ yearStart b := by
  induction b, h using Int.leInduction with
  | base => omega
  | succ b _ ih =>
    have hstep : yearStart b + 365 ≤ yearStart (b + 1) := by
      rw [yearStart_eq (b + 1), Int.add_sub_cancel]
      split <;> omega
    omega

/-- The number of the first of January of a year. -/
def newYear (year : Int) : Int := yearStart (year - 1) + 306 - epochDays

/-- Whether a date lies in a year or behind it is told by the number of the first of January. -/
theorem le_year_iff {d : Date} {year : Int} : year ≤ d.year ↔ newYear year ≤ d.days := by
  obtain ⟨h0, h365, -⟩ := d.marchDay_bounds
  have hcases := d.marchYear_cases
  rw [days_eq]
  unfold newYear
  generalize marchYear d.year d.month = y at hcases
  generalize marchDay d.month d.day = day at h0 h365 hcases
  constructor
  · intro h
    have hy : yearStart (year - 1) + 365 * (y - (year - 1)) ≤ yearStart y :=
      yearStart_add_le (by omega)
    omega
  · intro h
    by_contra hlt
    have hy : yearStart y + 365 * (year - 1 - y) ≤ yearStart (year - 1) :=
      yearStart_add_le (by omega)
    omega

end Date

end KeyedRecord.Calendar
