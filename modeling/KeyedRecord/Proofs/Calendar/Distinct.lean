import KeyedRecord.Proofs.Calendar.DayCount
import KeyedRecord.Proofs.Calendar.Timestamp

/-!
# Timestamps tell points apart

Different points in time have different timestamps, also where these are not read: `text_injective`.
The year ends at the hyphen behind its digits and begins with a sign if it is not plain, and what
follows it is of fixed width or is read back.
-/

set_option autoImplicit false

namespace KeyedRecord.Calendar.DateTime

open Text

/-! ## Years -/

theorem isDigit_of_mem_atLeastFourDigits {n : Nat} {c : Char} (h : c ∈ atLeastFourDigits n) :
    c.isDigit = true := by
  unfold atLeastFourDigits at h
  split at h
  · exact isDigit_of_mem_fixedDigits h
  · rw [Nat.toString_eq_repr, Nat.toList_repr] at h
    exact Nat.isDigit_of_mem_toDigits (by decide) (by decide) h

theorem ofDigitChars_atLeastFourDigits (n : Nat) :
    Nat.ofDigitChars 10 (atLeastFourDigits n) 0 = n := by
  unfold atLeastFourDigits
  split
  · rename_i h
    exact ofDigitChars_fixedDigits h
  · rw [Nat.toString_eq_repr, Nat.toList_repr]
    exact Nat.ofDigitChars_ten_toDigits

/-- The sign of a year, which plain years do not have. -/
def yearSign (year : Int) : List Char :=
  if 0 ≤ year ∧ year < 10000 then [] else if year < 0 then ['-'] else ['+']

theorem yearText_eq (year : Int) :
    yearText year = yearSign year ++ atLeastFourDigits year.natAbs := by
  unfold yearText yearSign
  split
  · rename_i h
    have hlt : year.natAbs < 10000 := by omega
    have habs : year.toNat = year.natAbs := by omega
    rw [atLeastFourDigits, if_pos hlt, habs]
    rfl
  · split
    · rfl
    · rfl

theorem not_isDigit_of_mem_yearSign {year : Int} {c : Char} (h : c ∈ yearSign year) :
    (!c.isDigit) = true := by
  unfold yearSign at h
  split at h
  · cases h
  · split at h
    · rw [List.mem_singleton.mp h]
      rfl
    · rw [List.mem_singleton.mp h]
      rfl

/-- The digits begin with a digit. -/
theorem exists_atLeastFourDigits_eq_cons (n : Nat) :
    ∃ c r, atLeastFourDigits n = c :: r ∧ (!c.isDigit) = false := by
  cases h : atLeastFourDigits n with
  | nil =>
    unfold atLeastFourDigits at h
    split at h
    · have := length_fixedDigits 4 n
      rw [h] at this
      cases this
    · rw [Nat.toString_eq_repr, Nat.toList_repr] at h
      exact absurd h Nat.toDigits_ne_nil
  | cons c r =>
    have hc : c.isDigit = true :=
      isDigit_of_mem_atLeastFourDigits (n := n) (h ▸ List.mem_cons_self)
    exact ⟨c, r, rfl, by rw [hc]; rfl⟩

theorem year_eq_of_sign {y z : Int} (hs : yearSign y = yearSign z) (hn : y.natAbs = z.natAbs) :
    y = z := by
  have hnegative : ∀ x : Int, yearSign x = ['-'] ↔ x < 0 := by
    intro x
    unfold yearSign
    split
    · simp
      omega
    · split <;> simp <;> omega
  have hiff : y < 0 ↔ z < 0 := by rw [← hnegative, ← hnegative, hs]
  omega

/-- Years are told apart by their text in front of a hyphen, and so is what follows. -/
theorem yearText_append_inj {y z : Int} {r s : List Char}
    (h : yearText y ++ '-' :: r = yearText z ++ '-' :: s) : y = z ∧ r = s := by
  rw [yearText_eq, yearText_eq, List.append_assoc, List.append_assoc] at h
  obtain ⟨c, ds, hc, hdigit⟩ := exists_atLeastFourDigits_eq_cons y.natAbs
  obtain ⟨d, es, hd, hdigit'⟩ := exists_atLeastFourDigits_eq_cons z.natAbs
  obtain ⟨hsign, hrest⟩ : yearSign y = yearSign z ∧ atLeastFourDigits y.natAbs ++ '-' :: r =
      atLeastFourDigits z.natAbs ++ '-' :: s := by
    rw [hc, hd] at h ⊢
    exact append_cons_inj_of_all (fun _ => not_isDigit_of_mem_yearSign)
      (fun _ => not_isDigit_of_mem_yearSign) hdigit hdigit' h
  obtain ⟨hdigits, hrs⟩ := append_cons_inj_of_all (fun _ => isDigit_of_mem_atLeastFourDigits)
    (fun _ => isDigit_of_mem_atLeastFourDigits) (by decide) (by decide) hrest
  have hnumber : y.natAbs = z.natAbs := by
    rw [← ofDigitChars_atLeastFourDigits y.natAbs, hdigits, ofDigitChars_atLeastFourDigits]
  exact ⟨year_eq_of_sign hsign hnumber, (List.cons.inj hrs).2⟩

/-! ## Points -/

/-- **Different points have different timestamps.** -/
theorem text_injective {t u : DateTime} (h : t.text = u.text) : t = u := by
  have hlist := congrArg String.toList h
  rw [toList_text, toList_text] at hlist
  obtain ⟨hyear, hlist⟩ := yearText_append_inj hlist
  obtain ⟨hmonth, hlist⟩ := fixedDigits_append_inj t.date.month_lt u.date.month_lt hlist
  obtain ⟨hday, hlist⟩ := fixedDigits_append_inj t.date.day_lt u.date.day_lt (List.cons.inj hlist).2
  have hplus : NoDigitHead "+00:00".toList := by
    intro c hc
    cases hc
    decide
  have hdate : t.date = u.date := Date.eq_of_numbers hyear hmonth hday
  have hread := readTime_text t hplus (by decide)
  rw [(List.cons.inj hlist).2, hdate, readTime_text u hplus (by decide)] at hread
  cases hread
  rfl

end KeyedRecord.Calendar.DateTime
