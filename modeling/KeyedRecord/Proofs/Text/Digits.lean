import Mathlib.Tactic.Common
import KeyedRecord.Text.Digits
import KeyedRecord.Text.Quoted

/-!
# Digits that are read back

The digits of a number as a list, what a reader of digits makes of them, and what it makes of any
other text: a number that is read from a fixed width fits the width.  Numbers that fit a width are
told apart by their digits, whatever follows: `fixedDigits_append_inj`.
-/

set_option autoImplicit false

namespace KeyedRecord.Text

/-! ## Hexadecimal digits -/

theorem hexValue?_hexDigit {n : Nat} (h : n < 16) : hexValue? (hexDigit n) = some n := by
  have : ∀ n < 16, hexValue? (hexDigit n) = some n := by decide
  exact this n h

/-! ## Fixed width -/

/-- The text does not go on with a digit. -/
def NoDigitHead (r : List Char) : Prop := ∀ c, r.head? = some c → digitValue? c = none

theorem digitValue?_lt {c : Char} {v : Nat} (h : digitValue? c = some v) : v < 10 := by
  unfold digitValue? at h
  split at h
  · rename_i hc
    have h9 : c.toNat ≤ '9'.toNat := hc.2
    have h0 : '9'.toNat = '0'.toNat + 9 := rfl
    cases h
    omega
  · cases h

theorem readFixedFrom_lt {m width n : Nat} {cs r : List Char}
    (h : readFixedFrom m width cs = some (n, r)) : n < Nat.pow 10 width * (m + 1) := by
  induction width generalizing m cs with
  | zero =>
    have hm : m = n := congrArg Prod.fst (Option.some.inj h)
    change n < 1 * (m + 1)
    omega
  | succ width ih =>
    cases cs with
    | nil => cases h
    | cons c cs =>
      obtain ⟨v, hv, h⟩ := Option.bind_eq_some_iff.mp h
      have hlt := digitValue?_lt hv
      calc n < Nat.pow 10 width * (10 * m + v + 1) := ih h
        _ ≤ Nat.pow 10 width * (10 * (m + 1)) := Nat.mul_le_mul_left _ (by omega)
        _ = Nat.pow 10 (width + 1) * (m + 1) := by rw [← Nat.mul_assoc]; rfl

/-- A number that is read from a fixed width fits the width. -/
theorem readFixed_lt {width n : Nat} {cs r : List Char} (h : readFixed width cs = some (n, r)) :
    n < Nat.pow 10 width := by
  have := readFixedFrom_lt h
  omega

/-- Numbers that fit a width are told apart by their digits, and so is what follows. -/
theorem fixedDigits_append_inj {width n m : Nat} (hn : n < Nat.pow 10 width)
    (hm : m < Nat.pow 10 width) {r s : List Char}
    (h : fixedDigits width n ++ r = fixedDigits width m ++ s) : n = m ∧ r = s := by
  have hread := readFixed_fixedDigits width n r hn
  rw [h, readFixed_fixedDigits width m s hm] at hread
  cases hread
  exact ⟨rfl, rfl⟩

theorem readFixed_eq_none {width : Nat} {cs : List Char} (h : NoDigitHead cs) :
    readFixed (width + 1) cs = none := by
  cases cs with
  | nil => rfl
  | cons c cs =>
    rw [readFixed, readFixedFrom, h c rfl]
    rfl

/-! ## As many digits as there are -/

/-- The last `width` digits of a number. -/
def digitsOf : Nat → Nat → List Nat
  | 0, _ => []
  | width + 1, n => digitsOf width (n / 10) ++ [n % 10]

theorem length_digitsOf (width n : Nat) : (digitsOf width n).length = width := by
  induction width generalizing n with
  | zero => rfl
  | succ width ih => rw [digitsOf, List.length_append, ih, List.length_singleton]

theorem lt_of_mem_digitsOf {width n d : Nat} (h : d ∈ digitsOf width n) : d < 10 := by
  induction width generalizing n with
  | zero => cases h
  | succ width ih =>
    rcases List.mem_append.mp h with h | h
    · exact ih h
    · obtain rfl := List.mem_singleton.mp h
      exact Nat.mod_lt _ (by decide)

theorem fixedDigits_eq (width n : Nat) : fixedDigits width n = (digitsOf width n).map digit := by
  induction width generalizing n with
  | zero => rfl
  | succ width ih => rw [fixedDigits, digitsOf, ih, List.map_append, List.map_singleton]

/-- The number that digits stand for. -/
theorem foldl_digitsOf {width n : Nat} (h : n < Nat.pow 10 width) :
    (digitsOf width n).foldl (fun n d => 10 * n + d) 0 = n := by
  induction width generalizing n with
  | zero =>
    change n < 1 at h
    change 0 = n
    omega
  | succ width ih =>
    have hp : Nat.pow 10 (width + 1) = Nat.pow 10 width * 10 := rfl
    have hq : n / 10 < Nat.pow 10 width := by omega
    rw [digitsOf, List.foldl_append, ih hq, List.foldl_cons, List.foldl_nil]
    omega

theorem spanDigits_map_digit {ds : List Nat} (hd : ∀ d ∈ ds, d < 10) {r : List Char}
    (hr : NoDigitHead r) : spanDigits (ds.map digit ++ r) = (ds, r) := by
  induction ds with
  | nil =>
    cases r with
    | nil => rfl
    | cons c r =>
      rw [List.map_nil, List.nil_append, spanDigits, hr c rfl]
  | cons d ds ih =>
    have hdigit := digitValue?_digit (hd d List.mem_cons_self)
    rw [List.map_cons, List.cons_append, spanDigits, hdigit,
      ih fun e he => hd e (List.mem_cons_of_mem d he)]

/-- Digits are taken up to the first character that is none. -/
theorem spanDigits_fixedDigits (width n : Nat) {r : List Char} (hr : NoDigitHead r) :
    spanDigits (fixedDigits width n ++ r) = (digitsOf width n, r) := by
  rw [fixedDigits_eq]
  exact spanDigits_map_digit (fun _ => lt_of_mem_digitsOf) hr

/-! ## Digits as characters -/

theorem isDigit_digit {n : Nat} (h : n < 10) : (digit n).isDigit = true := by
  have : ∀ n < 10, (digit n).isDigit = true := by decide
  exact this n h

theorem toNat_digit {n : Nat} (h : n < 10) : (digit n).toNat - '0'.toNat = n := by
  have : ∀ n < 10, (digit n).toNat - '0'.toNat = n := by decide
  exact this n h

theorem isDigit_of_mem_fixedDigits {width n : Nat} {c : Char} (h : c ∈ fixedDigits width n) :
    c.isDigit = true := by
  rw [fixedDigits_eq] at h
  obtain ⟨d, hd, rfl⟩ := List.mem_map.mp h
  exact isDigit_digit (lt_of_mem_digitsOf hd)

theorem ofDigitChars_fixedDigits {width n : Nat} (h : n < Nat.pow 10 width) :
    Nat.ofDigitChars 10 (fixedDigits width n) 0 = n := by
  induction width generalizing n with
  | zero =>
    change n < 1 at h
    change 0 = n
    omega
  | succ width ih =>
    have hp : Nat.pow 10 (width + 1) = Nat.pow 10 width * 10 := rfl
    have hq : n / 10 < Nat.pow 10 width := by omega
    rw [fixedDigits, Nat.ofDigitChars_append, ih hq, Nat.ofDigitChars_cons, Nat.ofDigitChars_nil,
      toNat_digit (Nat.mod_lt n (by decide))]
    omega

/-- Two texts are equal up to the first character without a property if they are equal as a whole.
-/
theorem append_cons_inj_of_all {p : Char → Bool} {a b r s : List Char} {c d : Char}
    (ha : ∀ x ∈ a, p x = true) (hb : ∀ x ∈ b, p x = true) (hc : p c = false) (hd : p d = false)
    (h : a ++ c :: r = b ++ d :: s) : a = b ∧ c :: r = d :: s := by
  have hleft : (a ++ c :: r).takeWhile p = a := by
    rw [List.takeWhile_append_of_pos ha, List.takeWhile_cons, hc]
    exact List.append_nil a
  have hright : (b ++ d :: s).takeWhile p = b := by
    rw [List.takeWhile_append_of_pos hb, List.takeWhile_cons, hd]
    exact List.append_nil b
  have hab : a = b := by rw [← hleft, h, hright]
  subst hab
  exact ⟨rfl, List.append_cancel_left h⟩

end KeyedRecord.Text
