import KeyedRecord.Calendar.Rfc3339
import KeyedRecord.Proofs.Text.Digits

/-!
# Timestamps that are read back

The printer and the reader of timestamps, part by part: `parse?_text` for years of four digits,
which come back, and `parse?_text_eq_none` for the others, whose sign the reader refuses.

A timestamp is read in the year that its text shows and then moved by less than a day, so the year
of a point that was read may lie one outside those of four digits, and no further: `year_of_parse?`.
-/

set_option autoImplicit false

namespace KeyedRecord.Calendar

open Text

/-! ## Bounds -/

theorem daysInMonth_le (year : Int) (month : Nat) : daysInMonth year month ≤ 31 := by
  unfold daysInMonth
  split
  · split <;> omega
  · split <;> omega

namespace Date

theorem month_lt (d : Date) : d.month < Nat.pow 10 2 := by
  have hm := d.isDate.2.1
  change d.month < 100
  omega

theorem day_lt (d : Date) : d.day < Nat.pow 10 2 := by
  have hd := d.isDate.2.2.2
  have h31 := daysInMonth_le d.year d.month
  change d.day < 100
  omega

theorem ofNumbers?_self (d : Date) : ofNumbers? d.year d.month d.day = some d :=
  dif_pos d.isDate

theorem year_of_ofNumbers? {year : Int} {month day : Nat} {d : Date}
    (h : ofNumbers? year month day = some d) : d.year = year := by
  unfold ofNumbers? at h
  split at h <;> cases h
  rfl

theorem year_next (d : Date) : d.next.year = d.year ∨ d.next.year = d.year + 1 := by
  unfold next
  split
  · exact .inl rfl
  · split
    · exact .inl rfl
    · exact .inr rfl

theorem year_previous (d : Date) : d.previous.year = d.year ∨ d.previous.year = d.year - 1 := by
  unfold previous
  split
  · exact .inl rfl
  · split
    · exact .inl rfl
    · exact .inr rfl

/-- A neighbour is at most a year away. -/
theorem year_shift (d : Date) (n : Int) :
    d.year - 1 ≤ (d.shift n).year ∧ (d.shift n).year ≤ d.year + 1 := by
  have hn := d.year_next
  have hp := d.year_previous
  unfold shift
  split
  · omega
  · split <;> omega

end Date

namespace DateTime

/-- The year of the point has four digits. -/
def HasPlainYear (t : DateTime) : Prop := 0 ≤ t.date.year ∧ t.date.year < 10000

instance (t : DateTime) : Decidable t.HasPlainYear := inferInstanceAs (Decidable (_ ∧ _))

/-! ## Part by part -/

theorem readOneOf_cons {expected : List Char} {c : Char} (h : c ∈ expected) (r : List Char) :
    readOneOf expected (c :: r) = some r :=
  if_pos h

/-- The date of a plain year is read back. -/
theorem readDate_text (d : Date) {year : Nat} (hy : d.year = year) (hlt : year < Nat.pow 10 4)
    (rest : List Char) :
    readDate (fixedDigits 4 year ++ '-' :: (fixedDigits 2 d.month ++
      '-' :: (fixedDigits 2 d.day ++ rest))) = some (d, rest) := by
  have hd := d.ofNumbers?_self
  rw [hy] at hd
  simp only [readDate, readFixed_fixedDigits _ _ _ hlt, readFixed_fixedDigits _ _ _ d.month_lt,
    readFixed_fixedDigits _ _ _ d.day_lt, readOneOf_cons List.mem_cons_self, hd,
    Option.bind_eq_bind,
    Option.bind_some, Option.pure_def]

/-- A fraction of `width` digits is read as nanoseconds. -/
theorem readFraction_digits {width n : Nat} (hw : width + 1 ≤ 9) (hn : n < Nat.pow 10 (width + 1))
    {r : List Char} (hr : NoDigitHead r) :
    readFraction ('.' :: (fixedDigits (width + 1) n ++ r)) =
      some (n * Nat.pow 10 (9 - (width + 1)), r) := by
  have hlen := length_digitsOf (width + 1) n
  have hnanos : fractionNanos (digitsOf (width + 1) n) = n * Nat.pow 10 (9 - (width + 1)) := by
    unfold fractionNanos
    rw [List.take_of_length_le (Nat.le_trans (Nat.le_of_eq hlen) hw), foldl_digitsOf hn, hlen]
  simp only [readFraction, spanDigits_fixedDigits _ _ hr]
  split
  · rename_i hnil
    rw [(Prod.mk.inj hnil).1] at hlen
    cases hlen
  · rename_i heq
    obtain ⟨rfl, rfl⟩ := Prod.mk.inj heq
    rw [hnanos]

/-- A fraction is read back, whatever the number of its digits. -/
theorem readFraction_text {nanos : Nat} (hn : nanos < secondNanos) {r : List Char}
    (hr : NoDigitHead r) (hdot : r.head? ≠ some '.') :
    readFraction (fractionText nanos ++ r) = some (nanos, r) := by
  unfold secondNanos at hn
  unfold fractionText
  split
  · rename_i h0
    subst h0
    cases r with
    | nil => rfl
    | cons c r =>
      have hc : c ≠ '.' := fun e => hdot (congrArg some e)
      unfold readFraction
      split
      · rename_i heq
        exact absurd (List.cons.inj heq).1 hc
      · rfl
  · split
    · rename_i hm
      have hlt : nanos / 1000000 < Nat.pow 10 3 := by change _ < 1000; omega
      have hback : nanos / 1000000 * Nat.pow 10 (9 - 3) = nanos := by
        change nanos / 1000000 * 1000000 = nanos
        omega
      rw [List.cons_append, readFraction_digits (by decide) hlt hr, hback]
    · split
      · rename_i hm
        have hlt : nanos / 1000 < Nat.pow 10 6 := by change _ < 1000000; omega
        have hback : nanos / 1000 * Nat.pow 10 (9 - 6) = nanos := by
          change nanos / 1000 * 1000 = nanos
          omega
        rw [List.cons_append, readFraction_digits (by decide) hlt hr, hback]
      · have hlt : nanos < Nat.pow 10 9 := hn
        have hback : nanos * Nat.pow 10 (9 - 9) = nanos := Nat.mul_one nanos
        rw [List.cons_append, readFraction_digits (by decide) hlt hr, hback]

/-- What the clock shows leads back to the time. -/
theorem ofClock?_self (t : DateTime) :
    ofClock? t.date t.hour.val t.minute.val t.shownSecond t.nanosecond.val = some t := by
  obtain ⟨date, hour, minute, second, isLeap, nanosecond, hleap⟩ := t
  unfold ofClock?
  rw [dif_pos ⟨hour.isLt, minute.isLt, nanosecond.isLt⟩]
  cases isLeap with
  | false => exact dif_pos second.isLt
  | true =>
    obtain rfl := hleap rfl
    rfl

theorem shownSecond_lt (t : DateTime) : t.shownSecond < Nat.pow 10 2 := by
  have hs := t.second.isLt
  change t.shownSecond < 100
  unfold shownSecond
  split <;> omega

/-- The time is read back, a leap second too. -/
theorem readTime_text (t : DateTime) {r : List Char} (hr : NoDigitHead r)
    (hdot : r.head? ≠ some '.') :
    readTime t.date (fixedDigits 2 t.hour.val ++ ':' :: (fixedDigits 2 t.minute.val ++
      ':' :: (fixedDigits 2 t.shownSecond ++ (fractionText t.nanosecond.val ++ r)))) =
      some (t, r) := by
  have hh : t.hour.val < Nat.pow 10 2 := by
    have := t.hour.isLt
    change t.hour.val < 100
    omega
  have hm : t.minute.val < Nat.pow 10 2 := by
    have := t.minute.isLt
    change t.minute.val < 100
    omega
  simp only [readTime, readFixed_fixedDigits _ _ _ hh, readFixed_fixedDigits _ _ _ hm,
    readFixed_fixedDigits _ _ _ t.shownSecond_lt, readOneOf_cons List.mem_cons_self,
    readFraction_text t.nanosecond.isLt hr hdot, ofClock?_self, Option.bind_eq_bind,
    Option.bind_some, Option.pure_def]

/-- The zone of universal time moves nothing. -/
theorem ofZone_zero (t : DateTime) : t.ofZone 0 = t := by
  have hh := t.hour.isLt
  have hm := t.minute.isLt
  have hday : t.minuteOfDay / dayMinutes = 0 := by unfold minuteOfDay dayMinutes; omega
  have hmod : (t.minuteOfDay % dayMinutes).toNat = t.hour.val * 60 + t.minute.val := by
    unfold minuteOfDay dayMinutes
    omega
  have hhour : (t.hour.val * 60 + t.minute.val) / 60 = t.hour.val := by omega
  have hminute : (t.hour.val * 60 + t.minute.val) % 60 = t.minute.val := by omega
  unfold ofZone
  simp only [Int.sub_zero, hday, hmod, hhour, hminute]
  rfl

/-! ## Whole timestamps -/

/-- The parts of a timestamp. -/
theorem toList_text (t : DateTime) : t.text.toList = yearText t.date.year ++
    '-' :: (fixedDigits 2 t.date.month ++ '-' :: (fixedDigits 2 t.date.day ++
    'T' :: (fixedDigits 2 t.hour.val ++ ':' :: (fixedDigits 2 t.minute.val ++
    ':' :: (fixedDigits 2 t.shownSecond ++
    (fractionText t.nanosecond.val ++ "+00:00".toList)))))) := by
  simp only [text, String.toList_ofList, List.append_assoc, List.cons_append]

/-- The fraction is left out, or has three, six or nine digits. -/
theorem fractionText_cases (nanos : Nat) : fractionText nanos = [] ∨
    ∃ digits, fractionText nanos = '.' :: digits ∧ digits.length ∈ [3, 6, 9] := by
  unfold fractionText
  split
  · exact .inl rfl
  · split
    · exact .inr ⟨_, rfl, by simp [length_fixedDigits]⟩
    · split
      · exact .inr ⟨_, rfl, by simp [length_fixedDigits]⟩
      · exact .inr ⟨_, rfl, by simp [length_fixedDigits]⟩

/-- The clock shows second sixty exactly in leap seconds. -/
theorem shownSecond_eq_sixty_iff (t : DateTime) :
    fixedDigits 2 t.shownSecond = ['6', '0'] ↔ t.isLeap = true := by
  have hplain : ∀ s : Fin 60, fixedDigits 2 s.val ≠ ['6', '0'] := by decide
  have hleap : fixedDigits 2 60 = ['6', '0'] := by decide
  unfold shownSecond
  cases t.isLeap with
  | false => exact iff_of_false (hplain t.second) Bool.false_ne_true
  | true => exact iff_of_true hleap rfl

/-- A timestamp of a plain year shows date and time in nineteen characters, of which the last two
are the second, then the fraction, then universal time. -/
theorem text_eq_of_plainYear {t : DateTime} (h : t.HasPlainYear) :
    ∃ clock fraction, t.text = String.ofList (clock ++ fraction ++ "+00:00".toList) ∧
      clock.length = 19 ∧ (clock.drop 17 = ['6', '0'] ↔ t.isLeap = true) ∧
      (fraction = [] ∨ ∃ digits, fraction = '.' :: digits ∧ digits.length ∈ [3, 6, 9]) := by
  have hyear : yearText t.date.year = fixedDigits 4 t.date.year.toNat := if_pos h
  refine ⟨fixedDigits 4 t.date.year.toNat ++ '-' :: fixedDigits 2 t.date.month ++
    '-' :: fixedDigits 2 t.date.day ++ 'T' :: fixedDigits 2 t.hour.val ++
    ':' :: fixedDigits 2 t.minute.val ++ [':'] ++ fixedDigits 2 t.shownSecond,
    fractionText t.nanosecond.val, ?_, ?_, ?_, fractionText_cases _⟩
  · unfold text
    rw [hyear]
    simp only [List.append_assoc, List.cons_append, List.nil_append]
  · simp [length_fixedDigits]
  · rw [List.drop_left' (by simp [length_fixedDigits])]
    exact t.shownSecond_eq_sixty_iff

/-- **A point of a plain year is read back from its timestamp.** -/
theorem parse?_text {t : DateTime} (h : t.HasPlainYear) : parse? t.text = some t := by
  obtain ⟨year, hy⟩ := Int.eq_ofNat_of_zero_le h.1
  have hlt : year < Nat.pow 10 4 := by
    have := h.2
    change year < 10000
    omega
  have hyear : yearText t.date.year = fixedDigits 4 year := (if_pos h).trans (by rw [hy]; rfl)
  have hoffset : readOffset "+00:00".toList = some (0, []) := by decide
  have hplus : NoDigitHead "+00:00".toList := by
    intro c hc
    cases hc
    decide
  unfold parse?
  rw [toList_text, hyear, readDate_text t.date hy hlt]
  simp only [Option.bind_eq_bind, Option.bind_some, readOneOf_cons List.mem_cons_self,
    readTime_text t hplus (by decide), dateTimeSeparators, hoffset, if_true, ofZone_zero,
    Option.pure_def]

/-- **The timestamp of any other point is refused.** -/
theorem parse?_text_eq_none {t : DateTime} (h : ¬ t.HasPlainYear) : parse? t.text = none := by
  obtain ⟨c, r, hsign, hc⟩ : ∃ c r, yearText t.date.year = c :: r ∧ digitValue? c = none := by
    have hs : yearText t.date.year = _ := if_neg h
    rw [hs]
    split
    · exact ⟨_, _, rfl, by decide⟩
    · exact ⟨_, _, rfl, by decide⟩
  unfold parse? readDate
  rw [toList_text, hsign, List.cons_append, readFixed_eq_none]
  · rfl
  · intro c' hc'
    cases hc'
    exact hc

/-! ## What is read at all -/

theorem year_of_readDate {cs r : List Char} {d : Date} (h : readDate cs = some (d, r)) :
    0 ≤ d.year ∧ d.year < 10000 := by
  obtain ⟨⟨year, r₁⟩, hy, h⟩ := Option.bind_eq_some_iff.mp h
  obtain ⟨r₂, -, h⟩ := Option.bind_eq_some_iff.mp h
  obtain ⟨⟨month, r₃⟩, -, h⟩ := Option.bind_eq_some_iff.mp h
  obtain ⟨r₄, -, h⟩ := Option.bind_eq_some_iff.mp h
  obtain ⟨⟨day, r₅⟩, -, h⟩ := Option.bind_eq_some_iff.mp h
  obtain ⟨d', hd, h⟩ := Option.bind_eq_some_iff.mp h
  cases h
  have hlt : year < 10000 := readFixed_lt hy
  rw [Date.year_of_ofNumbers? hd]
  omega

theorem date_of_readTime {date : Date} {cs r : List Char} {t : DateTime}
    (h : readTime date cs = some (t, r)) : t.date = date := by
  obtain ⟨⟨hour, r₁⟩, -, h⟩ := Option.bind_eq_some_iff.mp h
  obtain ⟨r₂, -, h⟩ := Option.bind_eq_some_iff.mp h
  obtain ⟨⟨minute, r₃⟩, -, h⟩ := Option.bind_eq_some_iff.mp h
  obtain ⟨r₄, -, h⟩ := Option.bind_eq_some_iff.mp h
  obtain ⟨⟨shown, r₅⟩, -, h⟩ := Option.bind_eq_some_iff.mp h
  obtain ⟨⟨nanos, r₆⟩, -, h⟩ := Option.bind_eq_some_iff.mp h
  obtain ⟨t', ht, h⟩ := Option.bind_eq_some_iff.mp h
  cases h
  unfold ofClock? at ht
  split at ht
  · split at ht
    · cases ht
      rfl
    · split at ht <;> cases ht
      rfl
  · cases ht

/-- A point that was read lies in a plain year, or in the year before or behind these. -/
theorem year_of_parse? {s : String} {t : DateTime} (h : parse? s = some t) :
    -1 ≤ t.date.year ∧ t.date.year ≤ 10000 := by
  obtain ⟨⟨date, r₁⟩, hd, h⟩ := Option.bind_eq_some_iff.mp h
  obtain ⟨r₂, -, h⟩ := Option.bind_eq_some_iff.mp h
  obtain ⟨⟨shown, r₃⟩, ht, h⟩ := Option.bind_eq_some_iff.mp h
  obtain ⟨⟨offset, r₄⟩, -, h⟩ := Option.bind_eq_some_iff.mp h
  change (if r₄ = [] then some (shown.ofZone offset) else none) = some t at h
  split at h <;> cases h
  have hyear := year_of_readDate hd
  have hshift := Date.year_shift shown.date ((shown.minuteOfDay - offset) / dayMinutes)
  rw [date_of_readTime ht] at hshift
  change -1 ≤ (shown.date.shift _).year ∧ (shown.date.shift _).year ≤ 10000
  rw [date_of_readTime ht]
  omega

end DateTime

end KeyedRecord.Calendar
