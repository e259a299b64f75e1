import KeyedRecord.Calendar.Date

/-!
# Dates with a time

A time of day, of universal time, has a precision of one nanosecond.  A leap second follows the last
second of a minute and is part of it: it has the same number, and a mark.

The type of these is `DateTime<Utc>` where a member is declared with one.
-/

set_option autoImplicit false

namespace KeyedRecord.Calendar

/-- The second that a leap second follows. -/
abbrev lastSecond : Fin 60 := ⟨59, by decide⟩

/-- A point in universal time. -/
structure DateTime where
  date : Date
  hour : Fin 24
  minute : Fin 60
  second : Fin 60
  /-- The second is the one that was inserted after the last of the minute. -/
  isLeap : Bool
  nanosecond : Fin 1000000000
  leap_second : isLeap = true → second = lastSecond
  deriving DecidableEq

namespace DateTime

/-- The start of 1970. -/
def epoch : DateTime := ⟨.epoch, 0, 0, 0, false, 0, by decide⟩

/-- The minutes of a day. -/
def dayMinutes : Int := 24 * 60

/-- The minute of the day. -/
def minuteOfDay (t : DateTime) : Int := t.hour.val * 60 + t.minute.val

/-- The point whose clock shows a time in a zone that is `offset` minutes ahead of universal time,
in universal time.  Zones are less than a day ahead or behind. -/
def ofZone (shown : DateTime) (offset : Int) : DateTime :=
  let m := shown.minuteOfDay - offset
  { shown with
    date := shown.date.shift (m / dayMinutes)
    hour := ⟨(m % dayMinutes).toNat / 60, by unfold dayMinutes; omega⟩
    minute := ⟨(m % dayMinutes).toNat % 60, by omega⟩ }

/-! ## Seconds from the start of 1970 -/

/-- The nanoseconds of a second. -/
def secondNanos : Nat := 1000000000

/-- The seconds from the start of 1970 to a point, leap seconds not counted. -/
def unixSeconds (t : DateTime) : Int :=
  t.date.days * 86400 + t.minuteOfDay * 60 + t.second.val

/-- The nanoseconds after those seconds; a leap second adds a whole second. -/
def unixNanos (t : DateTime) : Nat :=
  t.nanosecond.val + if t.isLeap then secondNanos else 0

/-- The point that these seconds and nanoseconds lead to. -/
def ofUnix? (seconds : Int) (nanos : Nat) : Option DateTime := do
  let date ← Date.ofDays? (seconds / 86400)
  let s := (seconds % 86400).toNat
  let second : Fin 60 := ⟨s % 60, by omega⟩
  let isLeap := decide (secondNanos ≤ nanos)
  if h : nanos < 2 * secondNanos ∧ (isLeap = true → second = lastSecond) then
    return {
      date
      hour := ⟨s / 3600, by omega⟩
      minute := ⟨s / 60 % 60, by omega⟩
      second
      isLeap
      nanosecond := ⟨nanos % 1000000000, by omega⟩
      leap_second := h.2 }
  else none

end DateTime

end KeyedRecord.Calendar
