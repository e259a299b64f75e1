import KeyedRecord.Calendar.DateTime
import KeyedRecord.Text.Digits

/-!
# Internet timestamps

A timestamp is a date, a time and the offset of a zone, all of fixed width but for the fraction of a
second.  The reader takes every zone and any number of digits after the point, and counts second
sixty as the leap second of its minute.  The printer writes universal time, with a fraction of as
few digits as three, six or nine can hold it.

Only years of four digits can be read.  The printer has a form for the others, with a sign, which
the reader refuses.

The reader is `DateTime::parse_from_rfc3339`, followed by the change to universal time; the printer
is `to_rfc3339`.  That a text which was printed is read back is said in `Proofs.Calendar.Timestamp`:
`parse?_text` for years of four digits, and `parse?_text_eq_none` for the others.
-/

set_option autoImplicit false

namespace KeyedRecord.Calendar.DateTime

open Text

/-! ## Writing -/

/-- At least four digits. -/
def atLeastFourDigits (n : Nat) : List Char :=
  if n < 10000 then fixedDigits 4 n else (toString n).toList

/-- A year; one without four plain digits has a sign. -/
def yearText (year : Int) : List Char :=
  if 0 ≤ year ∧ year < 10000 then fixedDigits 4 year.toNat
  else if year < 0 then '-' :: atLeastFourDigits year.natAbs
  else '+' :: atLeastFourDigits year.natAbs

/-- A fraction of a second, given in nanoseconds. -/
def fractionText (nanos : Nat) : List Char :=
  if nanos = 0 then []
  else if nanos % 1000000 = 0 then '.' :: fixedDigits 3 (nanos / 1000000)
  else if nanos % 1000 = 0 then '.' :: fixedDigits 6 (nanos / 1000)
  else '.' :: fixedDigits 9 nanos

/-- The number that the clock shows for the second. -/
def shownSecond (t : DateTime) : Nat := if t.isLeap then 60 else t.second.val

/-- The timestamp of a point. -/
def text (t : DateTime) : String :=
  String.ofList (yearText t.date.year ++ '-' :: fixedDigits 2 t.date.month
    ++ '-' :: fixedDigits 2 t.date.day
    ++ 'T' :: fixedDigits 2 t.hour.val
    ++ ':' :: fixedDigits 2 t.minute.val
    ++ ':' :: fixedDigits 2 t.shownSecond
    ++ fractionText t.nanosecond.val
    ++ "+00:00".toList)

/-! ## Reading -/

/-- The rest behind one of the given characters. -/
def readOneOf (expected : List Char) : List Char → Option (List Char)
  | c :: r => if c ∈ expected then some r else none
  | [] => none

/-- The number of nanoseconds of the digits after the point.  Digits after the ninth are cut. -/
def fractionNanos (ds : List Nat) : Nat :=
  ds.take 9 |>.foldl (fun n d => 10 * n + d) 0 |> (· * Nat.pow 10 (9 - ds.length))

/-- A fraction, or nothing. -/
def readFraction : List Char → Option (Nat × List Char)
  | '.' :: r =>
    match spanDigits r with
    | ([], _) => none
    | (ds, rest) => some (fractionNanos ds, rest)
  | cs => some (0, cs)

/-- The letters for universal time. -/
def zuluLetters : List Char := ['Z', 'z']

/-- The signs of an offset behind universal time, the hyphen and the minus. -/
def minusSigns : List Char := ['-', '\u2212']

/-- Hours and minutes of an offset. -/
def readOffsetTime (cs : List Char) : Option (Int × List Char) := do
  let (hours, r) ← readFixed 2 cs
  let r ← readOneOf [':'] r
  let (minutes, r) ← readFixed 2 r
  if hours < 24 ∧ minutes < 60 then return ((hours * 60 + minutes : Nat), r) else none

/-- The offset of a zone in minutes. -/
def readOffset : List Char → Option (Int × List Char)
  | c :: r =>
    if c ∈ zuluLetters then some (0, r)
    else if c = '+' then readOffsetTime r
    else if c ∈ minusSigns then do
      let (m, r) ← readOffsetTime r
      return (-m, r)
    else none
  | [] => none

/-- The numbers of a date, with hyphens between them. -/
def readDate (cs : List Char) : Option (Date × List Char) := do
  let (year, r) ← readFixed 4 cs
  let r ← readOneOf ['-'] r
  let (month, r) ← readFixed 2 r
  let r ← readOneOf ['-'] r
  let (day, r) ← readFixed 2 r
  return (← Date.ofNumbers? year month day, r)

/-- A time of a date, as a clock shows it: second sixty is a leap second. -/
def ofClock? (date : Date) (hour minute shown nanos : Nat) : Option DateTime :=
  if h : hour < 24 ∧ minute < 60 ∧ nanos < 1000000000 then
    let hour : Fin 24 := ⟨hour, h.1⟩
    let minute : Fin 60 := ⟨minute, h.2.1⟩
    let nanos : Fin 1000000000 := ⟨nanos, h.2.2⟩
    if h : shown < 60 then
      some ⟨date, hour, minute, ⟨shown, h⟩, false, nanos, fun e => absurd e Bool.false_ne_true⟩
    else if shown = 60 then some ⟨date, hour, minute, lastSecond, true, nanos, fun _ => rfl⟩
    else none
  else none

/-- The time of a date, with colons between the numbers. -/
def readTime (date : Date) (cs : List Char) : Option (DateTime × List Char) := do
  let (hour, r) ← readFixed 2 cs
  let r ← readOneOf [':'] r
  let (minute, r) ← readFixed 2 r
  let r ← readOneOf [':'] r
  let (shown, r) ← readFixed 2 r
  let (nanos, r) ← readFraction r
  return (← ofClock? date hour minute shown nanos, r)

/-- The letters and the blank that may stand between date and time. -/
def dateTimeSeparators : List Char := ['T', 't', ' ']

/-- The point that a timestamp stands for. -/
def parse? (s : String) : Option DateTime := do
  let (date, r) ← readDate s.toList
  let r ← readOneOf dateTimeSeparators r
  let (shown, r) ← readTime date r
  let (offset, r) ← readOffset r
  if r = [] then return shown.ofZone offset else none

end KeyedRecord.Calendar.DateTime
