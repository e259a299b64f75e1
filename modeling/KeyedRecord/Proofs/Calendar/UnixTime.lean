import KeyedRecord.Calendar.DateTime
import KeyedRecord.Proofs.Calendar.DayCount
import KeyedRecord.Proofs.Calendar.Timestamp

/-!
# Seconds from the start of 1970

A point in time is known by its seconds and nanoseconds: `ofUnix?_eq_some_iff`.  There is a point
for every number of seconds, also before 1970, and every number of nanoseconds below a second; for
as many more if the second is the last of a minute, and these are leap seconds: `exists_ofUnix?`.
-/

set_option autoImplicit false

namespace KeyedRecord.Calendar.DateTime

/-! ## The numbers of a point -/

/-- The second of the day. -/
def secondOfDay (t : DateTime) : Nat := t.hour.val * 3600 + t.minute.val * 60 + t.second.val

theorem secondOfDay_lt (t : DateTime) : t.secondOfDay < 86400 := by
  have hh := t.hour.isLt
  have hm := t.minute.isLt
  have hs := t.second.isLt
  unfold secondOfDay
  omega

theorem unixSeconds_eq (t : DateTime) : t.unixSeconds = t.date.days * 86400 + t.secondOfDay := by
  unfold unixSeconds minuteOfDay secondOfDay
  omega

/-- The clock shows the second of the day. -/
theorem clock_eq (t : DateTime) : t.secondOfDay / 3600 = t.hour.val ∧
    t.secondOfDay / 60 % 60 = t.minute.val ∧ t.secondOfDay % 60 = t.second.val := by
  have hm := t.minute.isLt
  have hs := t.second.isLt
  unfold secondOfDay
  omega

/-- A leap second is told by its nanoseconds. -/
theorem unixNanos_spec (t : DateTime) : t.unixNanos < 2 * secondNanos ∧
    decide (secondNanos ≤ t.unixNanos) = t.isLeap ∧ t.unixNanos % 1000000000 =
      t.nanosecond.val := by
  have hn := t.nanosecond.isLt
  unfold unixNanos secondNanos
  cases t.isLeap with
  | false => simp only [Bool.false_eq_true, if_false, decide_eq_false_iff_not]; omega
  | true => simp only [if_true, decide_eq_true_iff]; omega

/-! ## From the numbers to the point -/

theorem ofUnix?_unix (t : DateTime) : ofUnix? t.unixSeconds t.unixNanos = some t := by
  obtain ⟨hhour, hminute, hsecond⟩ := t.clock_eq
  obtain ⟨hlt, hleap, hnanos⟩ := t.unixNanos_spec
  have hs := t.secondOfDay_lt
  have hday : t.unixSeconds / 86400 = t.date.days := by
    rw [unixSeconds_eq]
    omega
  have hrest : (t.unixSeconds % 86400).toNat = t.secondOfDay := by
    rw [unixSeconds_eq]
    omega
  unfold ofUnix?
  simp only [hday, hrest, hhour, hminute, hsecond, hleap, hnanos, Date.ofDays?_days,
    Option.bind_eq_bind, Option.bind_some]
  exact dif_pos ⟨hlt, t.leap_second⟩

/-- **A point is known by its seconds and nanoseconds.** -/
theorem ofUnix?_eq_some_iff {seconds : Int} {nanos : Nat} {t : DateTime} :
    ofUnix? seconds nanos = some t ↔ t.unixSeconds = seconds ∧ t.unixNanos = nanos := by
  constructor
  · intro h
    obtain ⟨date, hdate, h⟩ := Option.bind_eq_some_iff.mp h
    have hdays := Date.ofDays?_eq_some_iff.mp hdate
    dsimp only at h
    split at h
    · rename_i hvalid
      cases h
      constructor
      · rw [unixSeconds_eq, hdays]
        unfold secondOfDay
        dsimp only
        generalize hs : (seconds % 86400).toNat = s
        have hclock : s / 3600 * 3600 + s / 60 % 60 * 60 + s % 60 = s := by omega
        rw [hclock]
        omega
      · have hlt := hvalid.1
        unfold unixNanos secondNanos at *
        dsimp only
        split
        · rename_i hleap
          have := of_decide_eq_true hleap
          omega
        · rename_i hleap
          have := of_decide_eq_false (Bool.eq_false_iff.mpr hleap)
          omega
    · cases h
  · rintro ⟨rfl, rfl⟩
    exact t.ofUnix?_unix

/-- There is a point for all seconds, and a leap second behind the last second of every minute. -/
theorem exists_ofUnix? {seconds : Int} {nanos : Nat} (hn : nanos < 2 * secondNanos)
    (hl : secondNanos ≤ nanos → seconds % 60 = 59) : ∃ t, ofUnix? seconds nanos = some t := by
  obtain ⟨date, hdate⟩ := Date.exists_days_eq (seconds / 86400)
  have hsecond : decide (secondNanos ≤ nanos) = true →
      (⟨(seconds % 86400).toNat % 60, by omega⟩ : Fin 60) = lastSecond := by
    intro h
    have := hl (of_decide_eq_true h)
    exact Fin.ext (by dsimp only; omega)
  unfold ofUnix?
  rw [Date.ofDays?_eq_some_iff.mpr hdate]
  exact ⟨_, dif_pos ⟨hn, hsecond⟩⟩

/-! ## Plain years -/

/-- The first second of the year zero. -/
def firstPlainSecond : Int := -62167219200

/-- The first second of the year ten thousand. -/
def endOfPlainSeconds : Int := 253402300800

theorem hasPlainYear_iff {t : DateTime} :
    t.HasPlainYear ↔ firstPlainSecond ≤ t.unixSeconds ∧ t.unixSeconds < endOfPlainSeconds := by
  have hs := t.secondOfDay_lt
  have hfirst : 0 ≤ t.date.year ↔ (-719528 : Int) ≤ t.date.days := Date.le_year_iff
  have hend : 10000 ≤ t.date.year ↔ (2932897 : Int) ≤ t.date.days := Date.le_year_iff
  unfold HasPlainYear firstPlainSecond endOfPlainSeconds
  rw [unixSeconds_eq]
  omega

end KeyedRecord.Calendar.DateTime
