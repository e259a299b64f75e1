import KeyedRecord.Proofs.Number.Rounding

/-!
# Comparing numbers

Two numbers are equal if neither is a NaN and they are the same number or two zeros:
`equal_eq_true_iff`.  Conversion to a wider format keeps NaNs, zeros and differences, so it
preserves and reflects this equality: `equal_convert`.
-/

set_option autoImplicit false

namespace KeyedRecord.Binary

variable {f g : Format}

theorem equal_eq_true_iff {x y : Binary f} : x.equal y = true ↔
    x.isNaN = false ∧ y.isNaN = false ∧ (x = y ∨ x.isZero = true ∧ y.isZero = true) := by
  unfold equal
  cases x.isNaN <;> cases y.isNaN <;> cases x.isZero <;> cases y.isZero <;> simp

theorem equal_comm (x y : Binary f) : x.equal y = y.equal x := by
  rw [Bool.eq_iff_iff, equal_eq_true_iff, equal_eq_true_iff, and_left_comm, eq_comm (a := x),
    and_comm (a := x.isZero = true)]

theorem equal_trans {x y z : Binary f} (hxy : x.equal y = true) (hyz : y.equal z = true) :
    x.equal z = true := by
  rw [equal_eq_true_iff] at *
  obtain ⟨hx, -, hxy⟩ := hxy
  obtain ⟨-, hz, hyz⟩ := hyz
  refine ⟨hx, hz, ?_⟩
  rcases hxy with rfl | ⟨hx, hy⟩
  · exact hyz
  · rcases hyz with rfl | ⟨-, hz⟩
    · exact .inr ⟨hx, hy⟩
    · exact .inr ⟨hx, hz⟩

/-- A number equals itself unless it is a NaN. -/
theorem equal_self_iff {x : Binary f} : x.equal x = true ↔ x.isNaN = false := by
  simp [equal_eq_true_iff]

/-! ## In another format -/

/-- A zero is known by its sign. -/
theorem isZero_iff {x : Binary f} : x.isZero = true ↔ x = zero f x.negative := by
  obtain ⟨negative, exponent, fraction⟩ := x
  have he : exponent = low f.exponentBits 0 ↔ exponent.val = 0 := by
    rw [Fin.ext_iff, low_val (Nat.two_pow_pos _)]
  have hf : fraction = low f.fractionBits 0 ↔ fraction.val = 0 := by
    rw [Fin.ext_iff, low_val (Nat.two_pow_pos _)]
  simp [isZero, zero, he, hf]

theorem isZero_zero (f : Format) (negative : Bool) : (zero f negative).isZero = true :=
  isZero_iff.mpr rfl

/-- A zero is converted to the zero of its sign. -/
theorem convert_zero (hf : 0 < f.topExponent) (negative : Bool) :
    convert g (zero f negative) = zero g negative := by
  have hexponent : (zero f negative).exponent.val = 0 := low_val (Nat.two_pow_pos _)
  have hfinite : (zero f negative).IsFinite := by
    rw [IsFinite, hexponent]
    exact hf
  have hsignificand : (zero f negative).significand = 0 := by
    rw [significand_of_subnormal hexponent]
    exact low_val (Nat.two_pow_pos _)
  have hratio : (zero f negative).ratio.1 = 0 := by
    unfold ratio scaled
    rw [hsignificand]
    split
    · exact Nat.zero_mul _
    · rfl
  unfold convert
  rw [not_isNaN_of_isFinite hfinite, not_isInfinite_of_isFinite hfinite, hratio]
  rfl

theorem isNaN_convert (hg : (nan g).isNaN = true) (ht : 0 < g.topExponent) (x : Binary f) :
    (convert g x).isNaN = x.isNaN := by
  unfold convert
  cases hx : x.isNaN with
  | true => exact hg
  | false =>
    cases x.isInfinite with
    | true => exact isNaN_infinity g x.negative
    | false => exact isNaN_ofRatio ht x.negative _ _

/-- **Conversion to a wider format preserves and reflects equality.** -/
theorem equal_convert (h : f.Within g) (hf : 0 < f.topExponent) (hg : 0 < g.topExponent)
    (hnan : (nan g).isNaN = true) (x y : Binary f) :
    (convert g x).equal (convert g y) = x.equal y := by
  rw [Bool.eq_iff_iff, equal_eq_true_iff, equal_eq_true_iff, isNaN_convert hnan hg,
    isNaN_convert hnan hg]
  refine and_congr_right fun hx => and_congr_right fun hy => ?_
  have hinj : convert g x = convert g y ↔ x = y := by
    refine ⟨fun he => ?_, congrArg _⟩
    rw [← convert_convert h hx, he, convert_convert h hy]
  have hzero : ∀ z : Binary f, z.isNaN = false →
      ((convert g z).isZero = true ↔ z.isZero = true) := by
    intro z hz
    constructor
    · intro hc
      rw [← convert_convert h hz, isZero_iff.mp hc, convert_zero hg]
      exact isZero_zero f _
    · intro hz
      rw [isZero_iff.mp hz, convert_zero hf]
      exact isZero_zero g _
  rw [hinj, hzero x hx, hzero y hy]

end KeyedRecord.Binary
