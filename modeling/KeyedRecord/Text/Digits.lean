/-!
# Decimal digits

Numbers of a fixed width are written with leading zeros and read back by their width alone, so that
nothing has to mark where they end.  `readFixed_fixedDigits` is the round trip, for a number that
fits the width and whatever follows it.
-/

set_option autoImplicit false

namespace KeyedRecord.Text

/-- The decimal digit of a number below ten. -/
def digit (n : Nat) : Char := Char.ofNat ('0'.toNat + n)

/-- The value of a decimal digit.  No other digits of Unicode count. -/
def digitValue? (c : Char) : Option Nat :=
  if '0' ≤ c ∧ c ≤ '9' then some (c.toNat - '0'.toNat) else none

/-- The last `width` digits of a number, with leading zeros. -/
def fixedDigits : Nat → Nat → List Char
  | 0, _ => []
  | width + 1, n => fixedDigits width (n / 10) ++ [digit (n % 10)]

/-- Exactly `width` digits behind the digits whose value is `n`, and the rest. -/
def readFixedFrom : Nat → Nat → List Char → Option (Nat × List Char)
  | n, 0, cs => some (n, cs)
  | n, width + 1, c :: cs => do readFixedFrom (10 * n + (← digitValue? c)) width cs
  | _, _ + 1, [] => none

/-- The number written in the first `width` digits, and the rest. -/
def readFixed (width : Nat) (cs : List Char) : Option (Nat × List Char) := readFixedFrom 0 width cs

/-- The digits that a text starts with, and the rest. -/
def spanDigits (cs : List Char) : List Nat × List Char :=
  match cs with
  | [] => ([], [])
  | c :: r =>
    match digitValue? c with
    | none => ([], cs)
    | some v => let (vs, rest) := spanDigits r; (v :: vs, rest)

theorem digitValue?_digit {n : Nat} (h : n < 10) : digitValue? (digit n) = some n := by
  have : ∀ n < 10, digitValue? (digit n) = some n := by decide
  exact this n h

theorem length_fixedDigits (width n : Nat) : (fixedDigits width n).length = width := by
  induction width generalizing n with
  | zero => rfl
  | succ width ih => simp [fixedDigits, ih]

theorem readFixedFrom_append (n k : Nat) (width : Nat) (ds rest : List Char) (v : Nat)
    (h : readFixedFrom n width ds = some (v, [])) :
    readFixedFrom n (width + k) (ds ++ rest) = readFixedFrom v k rest := by
  induction width generalizing n ds with
  | zero =>
    cases ds with
    | nil => simp [readFixedFrom] at h; simp [h]
    | cons c ds => simp [readFixedFrom] at h
  | succ width ih =>
    cases ds with
    | nil => simp [readFixedFrom] at h
    | cons c ds =>
      rw [show width + 1 + k = (width + k) + 1 by omega]
      cases hc : digitValue? c with
      | none => simp [readFixedFrom, hc] at h
      | some d =>
        simp only [readFixedFrom, hc, Option.bind_eq_bind, Option.bind_some,
          List.cons_append] at h ⊢
        exact ih _ _ h

theorem readFixedFrom_fixedDigits (width n m : Nat) (h : n < Nat.pow 10 width) :
    readFixedFrom m width (fixedDigits width n) = some (Nat.pow 10 width * m + n, []) := by
  induction width generalizing n m with
  | zero => simp [readFixedFrom, fixedDigits] at h ⊢; omega
  | succ width ih =>
    have hp : Nat.pow 10 (width + 1) = Nat.pow 10 width * 10 := rfl
    have h1 : n / 10 < Nat.pow 10 width := by omega
    have hd := digitValue?_digit (n := n % 10) (Nat.mod_lt _ (by omega))
    rw [fixedDigits, readFixedFrom_append m 1 width _ _ _ (ih (n / 10) m h1)]
    simp only [readFixedFrom, hd, Option.bind_eq_bind, Option.bind_some, Option.some.injEq,
      Prod.mk.injEq, and_true]
    rw [hp, Nat.mul_comm _ 10, Nat.mul_add, Nat.mul_assoc]
    omega

/-- A number that fits a width is read back from its digits, whatever follows. -/
theorem readFixed_fixedDigits (width n : Nat) (rest : List Char) (h : n < Nat.pow 10 width) :
    readFixed width (fixedDigits width n ++ rest) = some (n, rest) := by
  have := readFixedFrom_append 0 0 width _ rest _ (readFixedFrom_fixedDigits width n 0 h)
  simpa [readFixed, readFixedFrom] using this

end KeyedRecord.Text
