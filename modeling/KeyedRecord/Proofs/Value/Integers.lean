import KeyedRecord.Catalogue.Types
import KeyedRecord.Proofs.Value.Survival

/-!
# Integers of one type read as another

A number is stored as an integer if it is one that a value holds directly, and else in a payload of
its own type.  So it is read as any type that holds it in the first case, and only as its own in the
second, always as the same integer: `cast_toValue_int`.
-/

set_option autoImplicit false

namespace KeyedRecord

/-- Numbers below those that a value holds directly belong to none of the types. -/
theorem Bounded.holds_i64_iff {t : IntType} (n : Bounded t) :
    IntType.i64.Holds n.val ↔ n.val ≤ 9223372036854775807 := by
  have hleast : IntType.i64.least ≤ t.least := by cases t <;> decide
  exact ⟨And.right, fun h => ⟨Int.le_trans hleast n.holds.1, h⟩⟩

namespace MemberType

variable {R : Registry} {U : UrlFormat}

/-! ## The two ways in which a number is stored -/

theorem intToValue_of_le {t : IntType} {n : Bounded t} (h : n.val ≤ 9223372036854775807) :
    intToValue (R := R) t n = .integer ⟨n.val, n.holds_i64_iff.mpr h⟩ := by
  have hn : Bounded.ofInt? .i64 n.val = some ⟨n.val, n.holds_i64_iff.mpr h⟩ := dif_pos _
  unfold intToValue
  rw [hn]

theorem intToValue_of_lt {t : IntType} {n : Bounded t} (h : 9223372036854775807 < n.val) :
    intToValue (R := R) t n = .ofThing (.number n) := by
  have hn : ¬ IntType.i64.Holds n.val := fun hh => Int.not_le.mpr h (n.holds_i64_iff.mp hh)
  unfold intToValue
  rw [Bounded.ofInt?_eq_none hn]

/-! ## Reading either -/

theorem castInt_integer (t : IntType) (n : Integer) : castInt (R := R) t (.integer n) =
    if h : t.Holds n.val then .ok ⟨n.val, h⟩ else .error ⟨t.name, .outOfRange⟩ := by
  unfold castInt Bounded.ofInt?
  by_cases h : t.Holds n.val
  · simp only [dif_pos h]
  · simp only [dif_neg h]

/-- A payload is read as no type but its own. -/
theorem castInt_number_of_ne {s t : IntType} (n : Bounded s) (h : s ≠ t) :
    castInt (R := R) t (.ofThing (.number n)) = .error ⟨t.name, .kind s.name⟩ := by
  have hcontent : (Opaque.new (.number n) : Opaque R (Value R)).downcast? (.int t) = none :=
    Opaque.downcast?_of_ne fun he => h (PayloadType.int.inj he)
  unfold castInt Value.ofThing
  simp only [hcontent, ite_self]
  rfl

/-! ## Storing and reading -/

section

variable {s t : IntType} {n : Bounded s}

theorem castInt_intToValue_eq_ok_iff {m : Bounded t} : castInt t (intToValue (R := R) s n) = .ok m ↔
    m.val = n.val ∧ (n.val ≤ 9223372036854775807 ∨ s = t) := by
  by_cases hle : n.val ≤ 9223372036854775807
  · rw [intToValue_of_le hle, castInt_integer]
    by_cases ht : t.Holds n.val
    · simp only [dif_pos ht, Except.ok.injEq, hle, true_or, and_true]
      exact ⟨fun h => h ▸ rfl, fun h => Bounded.ext h.symm⟩
    · have hm : m.val ≠ n.val := fun h => ht (h ▸ m.holds)
      simp [dif_neg ht, hm]
  · by_cases hst : s = t
    · subst hst
      have hs : castInt s (intToValue (R := R) s n) = .ok n := castInt_intToValue s n
      rw [hs, Except.ok.injEq]
      exact ⟨fun h => h ▸ ⟨rfl, .inr rfl⟩, fun h => Bounded.ext h.1.symm⟩
    · rw [intToValue_of_lt (Int.not_le.mp hle), castInt_number_of_ne n hst]
      simp [hle, hst]

theorem castInt_intToValue_eq_error
    (h : ¬ ∃ m : Bounded t, m.val = n.val ∧ (n.val ≤ 9223372036854775807 ∨ s = t)) :
    castInt t (intToValue (R := R) s n) = .error
      ⟨t.name, if n.val ≤ 9223372036854775807 then .outOfRange else .kind s.name⟩ := by
  by_cases hle : n.val ≤ 9223372036854775807
  · have ht : ¬ t.Holds n.val := fun ht => h ⟨⟨n.val, ht⟩, rfl, .inl hle⟩
    rw [intToValue_of_le hle, castInt_integer, dif_neg ht, if_pos hle]
  · have hst : s ≠ t := by
      rintro rfl
      exact h ⟨n, rfl, .inr rfl⟩
    rw [intToValue_of_lt (Int.not_le.mp hle), castInt_number_of_ne n hst, if_neg hle]

end

/-- **Integers of different types exchange values without change.**  A number of one type is read as
another exactly if that type holds the same integer and the number is one that a value holds
directly, or the types are the same.  Any other cast fails: on the range if a value holds the number
directly, and else on the type that the number was stored with. -/
theorem cast_toValue_int (R : Registry) (U : UrlFormat) (s t : IntType) (n : Bounded s) :
    (∀ m : Bounded t, (int t : MemberType R U).cast ((int s : MemberType R U).toValue n) = .ok m ↔
      m.val = n.val ∧ (n.val ≤ 9223372036854775807 ∨ s = t)) ∧
    ((¬ ∃ m : Bounded t, m.val = n.val ∧ (n.val ≤ 9223372036854775807 ∨ s = t)) →
      ∃ e, (int t : MemberType R U).cast ((int s : MemberType R U).toValue n) = .error e ∧
        e.expected = t.name ∧
        e.found.text = if n.val ≤ 9223372036854775807 then "out-of-range integer" else s.name) := by
  refine ⟨fun m => castInt_intToValue_eq_ok_iff, fun h =>
    ⟨_, castInt_intToValue_eq_error h, rfl, ?_⟩⟩
  split
  · rfl
  · rfl

/-- The sample member type of an integer type. -/
abbrev sampleInt (t : IntType) : MemberType Catalogue.types Catalogue.urls := int t

/-- The greatest number of 64 bits without a sign, which no type with a sign holds and a type of the
same width without one does not take. -/
theorem cast_toValue_int_samples :
    (∃ e, (sampleInt .usize).cast ((sampleInt .u64).toValue (.wrap .u64 (-1))) = .error e ∧
      e.expected = "usize" ∧ e.found.text = "u64") ∧
    (∃ e, (sampleInt .u16).cast ((sampleInt .i8).toValue (.wrap .i8 (-1))) = .error e ∧
      e.expected = "u16" ∧ e.found.text = "out-of-range integer") ∧
    (sampleInt .u8).cast ((sampleInt .isize).toValue (.wrap .isize 255)) = .ok (.wrap .u8 255) := by
  refine ⟨?_, ?_, ?_⟩
  · refine (cast_toValue_int Catalogue.types Catalogue.urls .u64 .usize (.wrap .u64 (-1))).2 ?_
    rintro ⟨m, -, h⟩
    exact absurd h (by decide)
  · refine (cast_toValue_int Catalogue.types Catalogue.urls .i8 .u16 (.wrap .i8 (-1))).2 ?_
    rintro ⟨m, h, -⟩
    have hm := m.holds.1
    rw [h] at hm
    exact absurd hm (by decide)
  · exact ((cast_toValue_int Catalogue.types Catalogue.urls .isize .u8 (.wrap .isize 255)).1
      (.wrap .u8 255)).mpr (by decide)

end MemberType

end KeyedRecord
