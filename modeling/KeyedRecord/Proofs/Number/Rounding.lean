import Mathlib.Algebra.Order.Field.Power
import Mathlib.Data.Rat.Cast.Order
import Mathlib.Tactic.FieldSimp
import Mathlib.Tactic.Ring
import KeyedRecord.Number.Binary

/-!
# Rounding what need not be rounded

A quotient that is exactly the magnitude of a finite number of a format is rounded to this number:
`ofRatio_eq_of_magnitude`.  So a number that two formats have in common is kept by conversion
between them, and a format whose numbers are all in a wider one gets each of them back from there:
`convert_convert`.
-/

set_option autoImplicit false

namespace KeyedRecord

/-- Every number of the first format is one of the second, and subnormal there only if it is zero.
-/
structure Format.Within (f g : Format) : Prop where
  fraction : f.fractionBits ≤ g.fractionBits
  least : g.leastExponent + g.fractionBits ≤ f.leastExponent
  greatest : f.leastExponent + f.topExponent + f.fractionBits <
    g.leastExponent + g.topExponent + g.fractionBits

namespace Binary

variable {f g : Format}

/-! ## Quotients -/

theorem scaled_pos (num : Nat) {den : Nat} (h : 0 < den) (e : Int) : 0 < (scaled num den e).2 := by
  unfold scaled
  split
  · exact h
  · exact Nat.mul_pos h (Nat.two_pow_pos _)

/-- The power of two is a factor of the quotient. -/
theorem scaled_eq (num den : Nat) (e : Int) :
    ((scaled num den e).1 : ℚ) / (scaled num den e).2 = num / den * 2 ^ e := by
  unfold scaled
  split
  · rename_i h
    obtain ⟨k, rfl⟩ := Int.eq_ofNat_of_zero_le h
    simp
    ring
  · rename_i h
    obtain ⟨k, rfl⟩ : ∃ k : Nat, e = -k := ⟨(-e).toNat, by omega⟩
    simp
    ring

/-- The position of the highest bit of a natural number. -/
theorem log2_spec {n : Nat} (h : 0 < n) :
    (2 : ℚ) ^ (n.log2 : Int) ≤ n ∧ (n : ℚ) < 2 ^ ((n.log2 : Int) + 1) := by
  have hl : 2 ^ n.log2 ≤ n := Nat.log2_self_le h.ne'
  have hu : n < 2 ^ (n.log2 + 1) := Nat.lt_log2_self
  constructor
  · rw [zpow_natCast]
    exact_mod_cast hl
  · have he : ((n.log2 : Int) + 1) = ((n.log2 + 1 : Nat) : Int) := rfl
    rw [he, zpow_natCast]
    exact_mod_cast hu

/-- The power of two that fits into a quotient and its double does not. -/
theorem floorLog_spec {num den : Nat} (hn : 0 < num) (hd : 0 < den) :
    (2 : ℚ) ^ floorLog num den ≤ num / den ∧ (num / den : ℚ) < 2 ^ (floorLog num den + 1) := by
  have hdQ : (0 : ℚ) < den := by exact_mod_cast hd
  obtain ⟨hnl, hnu⟩ := log2_spec hn
  obtain ⟨hdl, hdu⟩ := log2_spec hd
  -- The quotient of the powers may be too great by one, which the comparison finds out.
  generalize he : (num.log2 : Int) - den.log2 = e
  have hlow : (2 : ℚ) ^ (e - 1) < num / den := by
    rw [lt_div_iff₀ hdQ]
    calc (2 : ℚ) ^ (e - 1) * den < 2 ^ (e - 1) * 2 ^ ((den.log2 : Int) + 1) := by gcongr
      _ = 2 ^ (num.log2 : Int) := by
        rw [← zpow_add₀ two_ne_zero]
        congr 1
        omega
      _ ≤ num := hnl
  have hhigh : (num / den : ℚ) < 2 ^ (e + 1) := by
    rw [div_lt_iff₀ hdQ]
    calc (num : ℚ) < 2 ^ ((num.log2 : Int) + 1) := hnu
      _ = 2 ^ (e + 1) * 2 ^ (den.log2 : Int) := by
        rw [← zpow_add₀ two_ne_zero]
        congr 1
        omega
      _ ≤ 2 ^ (e + 1) * den := by gcongr
  have hcompare : (scaled num den (-e)).2 ≤ (scaled num den (-e)).1 ↔ (2 : ℚ) ^ e ≤ num / den := by
    have hpos : (0 : ℚ) < (scaled num den (-e)).2 := by exact_mod_cast scaled_pos num hd (-e)
    rw [← Nat.cast_le (α := ℚ), ← one_le_div₀ hpos, scaled_eq, zpow_neg, ← div_eq_mul_inv,
      one_le_div₀ (by positivity)]
  unfold floorLog
  simp only [he]
  split
  · rename_i h
    exact ⟨hcompare.mp h, hhigh⟩
  · rename_i h
    rw [sub_add_cancel]
    exact ⟨hlow.le, not_le.mp (mt hcompare.mpr h)⟩

theorem floorLog_eq {num den : Nat} (hn : 0 < num) (hd : 0 < den) {k : Int}
    (hl : (2 : ℚ) ^ k ≤ num / den) (hu : (num / den : ℚ) < 2 ^ (k + 1)) : floorLog num den = k := by
  obtain ⟨hl', hu'⟩ := floorLog_spec hn hd
  have h1 : floorLog num den < k + 1 := (zpow_lt_zpow_iff_right₀ one_lt_two).mp (hl'.trans_lt hu)
  have h2 : k < floorLog num den + 1 := (zpow_lt_zpow_iff_right₀ one_lt_two).mp (hl.trans_lt hu')
  omega

theorem roundEven_mul {s den : Nat} (h : 0 < den) : roundEven (s * den) den = s := by
  unfold roundEven
  simp [Nat.mul_div_cancel s h, h]

/-! ## Magnitudes -/

/-- The number is neither infinite nor a NaN. -/
def IsFinite (x : Binary f) : Prop := x.exponent.val < f.topExponent

/-- The magnitude of a finite number. -/
def magnitude (x : Binary f) : ℚ := x.significand * 2 ^ x.scale

theorem ratio_pos (x : Binary f) : 0 < x.ratio.2 := scaled_pos _ Nat.one_pos _

theorem ratio_eq (x : Binary f) : (x.ratio.1 : ℚ) / x.ratio.2 = x.magnitude := by
  have h := scaled_eq x.significand 1 x.scale
  rw [Nat.cast_one, div_one] at h
  exact h

theorem low_val {width n : Nat} (h : n < 2 ^ width) : (low width n).val = n := Nat.mod_eq_of_lt h

theorem low_self {width : Nat} (i : Fin (Nat.pow 2 width)) : low width i.val = i :=
  Fin.ext (low_val i.isLt)

/-- The significand of a number that is not subnormal has one bit more than the fraction. -/
theorem significand_of_normal {x : Binary f} (h : x.exponent.val ≠ 0) :
    x.significand = x.fraction.val + 2 ^ f.fractionBits := if_neg h

theorem significand_of_subnormal {x : Binary f} (h : x.exponent.val = 0) :
    x.significand = x.fraction.val := if_pos h

theorem significand_lt (x : Binary f) : x.significand < 2 ^ (f.fractionBits + 1) := by
  have hfraction : x.fraction.val < 2 ^ f.fractionBits := x.fraction.isLt
  rw [pow_succ]
  unfold significand
  split
  · omega
  · change x.fraction.val + 2 ^ f.fractionBits < _
    omega

/-- The significand and the exponent of a number, put together again. -/
theorem assemble_significand {x : Binary f} (hx : x.IsFinite) :
    assemble f x.negative x.significand (max x.exponent.val 1) = x := by
  have hcarry : ¬ 2 * 2 ^ f.fractionBits ≤ x.significand := by
    have h := x.significand_lt
    rw [pow_succ] at h
    omega
  have hfraction : x.fraction.val < 2 ^ f.fractionBits := x.fraction.isLt
  unfold assemble
  simp only [Nat.pow_eq, if_neg hcarry]
  by_cases h : x.exponent.val = 0
  · have hzero : low f.exponentBits 0 = x.exponent := by
      rw [← h]
      exact low_self _
    rw [significand_of_subnormal h, if_pos hfraction, low_self, hzero]
  · have hnormal : ¬ x.fraction.val + 2 ^ f.fractionBits < 2 ^ f.fractionBits := by omega
    have hexponent : max x.exponent.val 1 = x.exponent.val := by omega
    rw [significand_of_normal h, if_neg hnormal, hexponent, if_neg (Nat.not_le.mpr hx),
      Nat.add_sub_cancel, low_self, low_self]

/-- Subnormal numbers have the scale of the first exponent that is not theirs. -/
theorem scale_eq (x : Binary f) :
    x.scale = f.leastExponent + ((max x.exponent.val 1 : Nat) : Int) - 1 := by
  unfold scale
  split <;> omega

/-- The logarithm of a magnitude says with which scale it is written. -/
theorem max_floorLog {x : Binary f} {num den : Nat} (hn : 0 < num) (hd : 0 < den)
    (h : (num / den : ℚ) = x.magnitude) :
    max (floorLog num den - f.fractionBits) f.leastExponent = x.scale := by
  have hpow : (0 : ℚ) < 2 ^ x.scale := by positivity
  have hscale := x.scale_eq
  by_cases hsub : x.exponent.val = 0
  · have hsmall : x.magnitude < 2 ^ (f.fractionBits + x.scale) := by
      rw [magnitude, significand_of_subnormal hsub, zpow_add₀ two_ne_zero, zpow_natCast]
      gcongr
      exact_mod_cast x.fraction.isLt
    have hlog := (floorLog_spec hn hd).1.trans_lt (h ▸ hsmall)
    rw [zpow_lt_zpow_iff_right₀ one_lt_two] at hlog
    omega
  · have hlow : (2 ^ f.fractionBits : ℚ) ≤ x.significand := by
      rw [significand_of_normal hsub]
      exact_mod_cast Nat.le_add_left _ _
    have hhigh : (x.significand : ℚ) < 2 ^ (f.fractionBits + 1) := by
      exact_mod_cast x.significand_lt
    have hlog : floorLog num den = f.fractionBits + x.scale := by
      refine floorLog_eq hn hd ?_ ?_
      · rw [h, magnitude, zpow_add₀ two_ne_zero, zpow_natCast]
        gcongr
      · rw [h, magnitude, add_right_comm, zpow_add₀ two_ne_zero]
        gcongr
        exact_mod_cast hhigh
    omega

/-- **A quotient that is the magnitude of a finite number is rounded to this number.** -/
theorem ofRatio_eq_of_magnitude {x : Binary f} (hx : x.IsFinite) {num den : Nat} (hd : 0 < den)
    (h : (num / den : ℚ) = x.magnitude) : ofRatio f x.negative num den = x := by
  have hdQ : (den : ℚ) ≠ 0 := by exact_mod_cast hd.ne'
  by_cases hn : num = 0
  · have hzero : x.significand = 0 := by
      rw [hn, Nat.cast_zero, zero_div, magnitude, eq_comm, mul_eq_zero] at h
      exact_mod_cast h.resolve_right (by positivity)
    have hassembled := assemble_significand hx
    rw [hzero] at hassembled
    rw [ofRatio, if_pos hn, ← hassembled]
    simp [assemble, zero]
  · have hscale := max_floorLog (Nat.pos_of_ne_zero hn) hd h
    have hexponent : (x.scale - f.leastExponent).toNat + 1 = max x.exponent.val 1 := by
      rw [scale_eq]
      omega
    have hexact : (scaled num den (-x.scale)).1 = x.significand *
        (scaled num den (-x.scale)).2 := by
      have hpos : ((scaled num den (-x.scale)).2 : ℚ) ≠
        0 := by exact_mod_cast (scaled_pos num hd _).ne'
      have := scaled_eq num den (-x.scale)
      rw [h, magnitude, mul_assoc, ← zpow_add₀ two_ne_zero, add_neg_cancel, zpow_zero, mul_one,
        div_eq_iff hpos] at this
      exact_mod_cast this
    unfold ofRatio
    simp only [if_neg hn, hscale, hexponent]
    rw [hexact, roundEven_mul (scaled_pos num hd _), assemble_significand hx]

/-! ## Conversion -/

/-- A number that is finite is none of the others. -/
theorem not_isNaN_of_isFinite {x : Binary f} (h : x.IsFinite) : x.isNaN = false := by
  simp [isNaN, Nat.ne_of_lt h]

theorem not_isInfinite_of_isFinite {x : Binary f} (h : x.IsFinite) : x.isInfinite = false := by
  simp [isInfinite, Nat.ne_of_lt h]

/-- **A number that two formats have in common is kept by conversion between them.** -/
theorem convert_eq_of_magnitude {x : Binary f} {y : Binary g} (hx : x.IsFinite) (hy : y.IsFinite)
    (hn : y.negative = x.negative) (hm : x.magnitude = y.magnitude) : convert g x = y := by
  unfold convert
  rw [not_isNaN_of_isFinite hx, not_isInfinite_of_isFinite hx, ← hn]
  exact ofRatio_eq_of_magnitude hy x.ratio_pos (x.ratio_eq.trans hm)

/-- A finite number as a number of a wider format. -/
theorem exists_magnitude_eq (h : f.Within g) {x : Binary f} (hx : x.IsFinite) :
    ∃ y : Binary g, y.IsFinite ∧ y.negative = x.negative ∧ x.magnitude = y.magnitude := by
  have htop : f.topExponent ≤ g.topExponent := by
    have := h.least
    have := h.greatest
    omega
  by_cases hzero : x.significand = 0
  · refine ⟨zero g x.negative, ?_, rfl, ?_⟩
    · have hexponent : (zero g x.negative).exponent.val = 0 := Nat.zero_mod _
      rw [IsFinite, hexponent]
      exact (Nat.zero_le _).trans_lt (hx.trans_le htop)
    · have hsignificand : (zero g x.negative).significand = 0 := by simp [significand, zero, low]
      rw [magnitude, magnitude, hzero, hsignificand, Nat.cast_zero, zero_mul, zero_mul]
  -- The highest bit of the significand becomes the one that is not written.
  generalize hk : x.significand.log2 = k
  have hkf : k ≤ f.fractionBits := by
    have := (Nat.log2_lt hzero).mpr x.significand_lt
    omega
  obtain ⟨j, hj⟩ : ∃ j, g.fractionBits = k + j := Nat.exists_eq_add_of_le (hkf.trans h.fraction)
  obtain ⟨e, he⟩ : ∃ e : Nat, g.leastExponent + e - 1 = x.scale - j := by
    refine ⟨(x.scale - j - g.leastExponent + 1).toNat, ?_⟩
    have := x.scale_eq
    have := h.least
    omega
  have hrange : 0 < e ∧ e < g.topExponent := by
    have := x.scale_eq
    have := h.least
    have := h.greatest
    have : x.exponent.val < f.topExponent := hx
    omega
  have hlow : 2 ^ g.fractionBits ≤ x.significand * 2 ^ j := by
    rw [hj, pow_add]
    exact Nat.mul_le_mul_right _ (hk ▸ Nat.log2_self_le hzero)
  have hhigh : x.significand * 2 ^ j < 2 * 2 ^ g.fractionBits := by
    rw [hj, pow_add, ← mul_assoc, ← pow_succ']
    exact Nat.mul_lt_mul_of_pos_right (hk ▸ Nat.lt_log2_self) (Nat.two_pow_pos j)
  have hwidth : e < 2 ^ g.exponentBits := hrange.2.trans_le (Nat.sub_le _ _)
  have hfraction : x.significand * 2 ^ j - 2 ^ g.fractionBits < 2 ^ g.fractionBits := by omega
  let y : Binary g :=
    ⟨x.negative, ⟨e, hwidth⟩, ⟨x.significand * 2 ^ j - 2 ^ g.fractionBits, hfraction⟩⟩
  have hsignificand : y.significand = x.significand * 2 ^ j :=
    (significand_of_normal (x := y) hrange.1.ne').trans (Nat.sub_add_cancel hlow)
  have hscale : y.scale = x.scale - j := by
    have hmax : max y.exponent.val 1 = e := max_eq_left hrange.1
    rw [scale_eq, hmax, he]
  refine ⟨y, hrange.2, rfl, ?_⟩
  rw [magnitude, magnitude, hsignificand, hscale, Nat.cast_mul, Nat.cast_pow, Nat.cast_ofNat,
    mul_assoc, ← zpow_natCast, ← zpow_add₀ two_ne_zero, add_sub_cancel]

/-! ## There and back -/

theorem exponent_infinity (f : Format) (negative : Bool) :
    (infinity f negative).exponent.val = f.topExponent :=
  low_val (Nat.sub_lt (Nat.two_pow_pos _) Nat.one_pos)

theorem fraction_infinity (f : Format) (negative : Bool) : (infinity f negative).fraction.val = 0 :=
  Nat.zero_mod _

theorem isNaN_infinity (f : Format) (negative : Bool) : (infinity f negative).isNaN = false := by
  simp [isNaN, fraction_infinity]

theorem isInfinite_infinity (f : Format) (negative : Bool) :
    (infinity f negative).isInfinite = true := by
  simp [isInfinite, exponent_infinity, fraction_infinity]

/-- A sign is all that infinities differ in. -/
theorem eq_infinity {x : Binary f} (h : x.isInfinite = true) : x = infinity f x.negative := by
  unfold isInfinite at h
  rw [Bool.and_eq_true, beq_iff_eq, beq_iff_eq] at h
  obtain ⟨negative, exponent, fraction⟩ := x
  have hexponent : exponent = (infinity f negative).exponent :=
    Fin.ext (h.1.trans (exponent_infinity f negative).symm)
  have hfraction : fraction = (infinity f negative).fraction :=
    Fin.ext (h.2.trans (fraction_infinity f negative).symm)
  rw [hexponent, hfraction]
  rfl

theorem convert_infinity (negative : Bool) :
    convert g (infinity f negative) = infinity g negative := by
  unfold convert
  rw [isNaN_infinity, isInfinite_infinity]
  rfl

/-- A number is finite if it is none of the others. -/
theorem isFinite_of_not {x : Binary f} (hn : x.isNaN = false) (hi : x.isInfinite = false) :
    x.IsFinite := by
  have hne : x.exponent.val ≠ f.topExponent := by
    intro he
    simp [isNaN, isInfinite, he] at hn hi
    exact hi hn
  have hle : x.exponent.val ≤ f.topExponent := Nat.le_sub_one_of_lt x.exponent.isLt
  exact lt_of_le_of_ne hle hne

/-- **Conversion to a wider format is undone by the conversion back.** -/
theorem convert_convert (h : f.Within g) {x : Binary f} (hx : x.isNaN = false) :
    convert f (convert g x) = x := by
  cases hinf : x.isInfinite with
  | true => rw [eq_infinity hinf, convert_infinity, convert_infinity]
  | false =>
    have hfinite := isFinite_of_not hx hinf
    obtain ⟨y, hy, hn, hm⟩ := exists_magnitude_eq h hfinite
    rw [convert_eq_of_magnitude hfinite hy hn hm,
      convert_eq_of_magnitude hy hfinite hn.symm hm.symm]

theorem single_within_double : Format.single.Within .double :=
  ⟨by decide, by decide, by decide⟩

/-! ## NaNs -/

theorem isNaN_of_exponent_ne {x : Binary f} (h : x.exponent.val ≠ f.topExponent) :
    x.isNaN = false := by
  simp [isNaN, h]

theorem isNaN_assemble (hf : 0 < f.topExponent) (negative : Bool) (s b : Nat) :
    (assemble f negative s b).isNaN = false := by
  have hcarried : ∀ s b : Nat,
      (if s < Nat.pow 2 f.fractionBits then (⟨negative, low _ 0, low _ s⟩ : Binary f)
        else if f.topExponent ≤ b then infinity f negative
        else ⟨negative, low _ b, low _ (s - Nat.pow 2 f.fractionBits)⟩).isNaN = false := by
    intro s b
    split
    · have hzero : (low f.exponentBits 0).val = 0 := Nat.zero_mod _
      refine isNaN_of_exponent_ne ?_
      rw [hzero]
      exact hf.ne
    · split
      · exact isNaN_infinity f negative
      · rename_i hb
        have hlt : b < f.topExponent := Nat.not_le.mp hb
        refine isNaN_of_exponent_ne ?_
        rw [low_val (hlt.trans_le (Nat.sub_le _ _))]
        exact hlt.ne
  exact hcarried _ _

/-- Rounding gives a number or an infinity. -/
theorem isNaN_ofRatio (hf : 0 < f.topExponent) (negative : Bool) (num den : Nat) :
    (ofRatio f negative num den).isNaN = false := by
  unfold ofRatio
  split
  · have hfraction : (zero f negative).fraction.val = 0 := Nat.zero_mod _
    simp [isNaN, hfraction]
  · exact isNaN_assemble hf negative _ _

/-- Conversion knows one NaN. -/
theorem convert_eq_nan (hg : 0 < g.topExponent) {x : Binary f} (h : (convert g x).isNaN = true) :
    convert g x = nan g := by
  unfold convert at h ⊢
  split
  · rfl
  · rename_i hx
    rw [if_neg hx] at h
    split at h
    · rw [isNaN_infinity] at h
      cases h
    · rw [isNaN_ofRatio hg] at h
      cases h

end Binary

end KeyedRecord
