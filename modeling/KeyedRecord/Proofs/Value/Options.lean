import KeyedRecord.Proofs.Value.Text

/-!
# Options in options

An option adds no layer to the value, so a nest of options is stored as its innermost thing, or as
the undefined value if some layer holds nothing.  What is read back is the nest itself where the
innermost thing is there and is not stored as undefined, or where the outermost layer holds nothing
already; any other nest is read back as the one whose outermost layer holds nothing:
`cast_toValue_nested`.
-/

set_option autoImplicit false

namespace KeyedRecord.MemberType

variable {R : Registry} {U : UrlFormat}

/-- Options of options, with a number of layers around a type. -/
def nested (t : MemberType R U) : Nat → MemberType R U
  | 0 => t
  | n + 1 => option (t.nested n)

/-- The nest that holds a thing under all of its layers. -/
def somes {t : MemberType R U} (x : t.Carrier) : (n : Nat) → (t.nested n).Carrier
  | 0 => x
  | n + 1 => some (somes x n)

/-- The types, other than options, all of whose things come back from their values.  Reals, dates
and URLs are none of them. -/
def isLossless : MemberType R U → Bool
  | int _ | boolean | character | string | uuid | value | custom _ => true
  | single | double | dateTime | url | option _ => false

variable {t : MemberType R U}

theorem survives_of_isLossless (h : t.isLossless = true) (x : t.Carrier) : t.Survives x := by
  cases t with
  | int t => exact survives_int t x
  | boolean => exact survives_boolean x
  | character => exact survives_character x
  | string => exact survives_string x
  | uuid => exact survives_uuid x
  | value => exact survives_value x
  | custom i => exact survives_custom i x
  | single | double | dateTime | url | option => cases h

/-! ## What a nest is stored as -/

theorem toValue_somes (x : t.Carrier) (n : Nat) :
    (t.nested n).toValue (somes x n) = t.toValue x := by
  induction n with
  | zero => rfl
  | succ n ih => exact ih

/-- A nest holds a thing under all of its layers, or is stored as undefined. -/
theorem eq_somes_or_toValue_eq_undefined {n : Nat} (x : (t.nested n).Carrier) :
    (∃ y, x = somes y n) ∨ (t.nested n).toValue x = .undefined := by
  induction n with
  | zero => exact .inl ⟨x, rfl⟩
  | succ n ih =>
    cases x with
    | none => exact .inr rfl
    | some x =>
      rcases ih x with ⟨y, rfl⟩ | h
      · exact .inl ⟨y, rfl⟩
      · exact .inr h

/-- A thing that is not stored as undefined survives under any number of layers. -/
theorem survives_somes {x : t.Carrier} (hs : t.Survives x)
    (hx : t.toValue x ≠ .undefined) (n : Nat) :
    (t.nested n).Survives (somes x n) := by
  induction n with
  | zero => exact hs
  | succ n ih =>
    refine survives_some_iff.mpr ⟨?_, ih⟩
    rw [toValue_somes]
    exact hx

/-! ## What comes back -/

/-- The outermost layer of a nest holds nothing, or every layer holds something, the innermost a
thing that is not stored as undefined. -/
def IsDefinite {n : Nat} (x : (t.nested (n + 1)).Carrier) : Prop :=
  x = (none : Option (t.nested n).Carrier) ∨ ∃ y, x = somes y (n + 1) ∧ t.toValue y ≠ .undefined

/-- Of the nests that are stored as undefined, the one whose outermost layer holds nothing is
definite. -/
theorem isDefinite_iff_of_undefined {n : Nat} {x : (t.nested (n + 1)).Carrier}
    (h : (t.nested (n + 1)).toValue x = .undefined) :
    IsDefinite x ↔ x = (none : Option (t.nested n).Carrier) := by
  refine ⟨fun hx => hx.resolve_right ?_, .inl⟩
  rintro ⟨y, rfl, hy⟩
  rw [toValue_somes] at h
  exact hy h

/-- **What comes back from a nest of options.**  The value of a nest around a lossless type always
casts back.  It gives the nest itself exactly if the nest is definite, and else the nest whose
outermost layer holds nothing.  That the innermost thing is not stored as undefined is asked of
dynamic values only. -/
theorem cast_toValue_nested (h : t.isLossless = true) (n : Nat) (x : (t.nested (n + 1)).Carrier) :
    (∃ y, (t.nested (n + 1)).cast ((t.nested (n + 1)).toValue x) = .ok y) ∧
    ((t.nested (n + 1)).cast ((t.nested (n + 1)).toValue x) = .ok x ↔ IsDefinite x) ∧
    (¬ IsDefinite x → (t.nested (n + 1)).cast ((t.nested (n + 1)).toValue x) =
      .ok (none : Option (t.nested n).Carrier)) ∧
    (t ≠ .value → ∀ y, t.toValue y ≠ .undefined) := by
  have hbase : t ≠ .value → ∀ y, t.toValue y ≠ .undefined := fun hv y =>
    toValue_ne_undefined hv (fun u hu => by rw [hu] at h; cases h) y
  -- A nest that is stored as undefined reads as nothing at all; any other is a thing under all
  -- layers.
  by_cases hu : (t.nested (n + 1)).toValue x = .undefined
  · have hcast : (t.nested (n + 1)).cast ((t.nested (n + 1)).toValue x) =
        .ok (none : Option (t.nested n).Carrier) := by
      rw [hu]
      rfl
    refine ⟨⟨_, hcast⟩, ?_, fun _ => hcast, hbase⟩
    rw [hcast, isDefinite_iff_of_undefined hu]
    exact ⟨fun he => (Except.ok.inj he).symm, fun he => congrArg Except.ok he.symm⟩
  · obtain ⟨y, rfl⟩ := (eq_somes_or_toValue_eq_undefined x).resolve_right hu
    have hy : t.toValue y ≠ .undefined := toValue_somes y (n + 1) ▸ hu
    have hcast : (t.nested (n + 1)).Survives (somes y (n + 1)) :=
      survives_somes (survives_of_isLossless h y) hy (n + 1)
    have hdefinite : IsDefinite (somes y (n + 1)) := .inr ⟨y, rfl, hy⟩
    exact ⟨⟨_, hcast⟩, iff_of_true hcast hdefinite, fun hn => absurd hdefinite hn, hbase⟩

/-- A number beyond those that a value holds directly. -/
def farNumber : Bounded .u64 := .wrap .u64 (-1)

open Catalogue (types urls) in
/-- Nothing under two of three layers comes back as nothing, and so does something around an
undefined dynamic value; a number comes back as it was. -/
theorem cast_toValue_nested_samples :
    (@int types urls .u64).isLossless = true ∧ (@value types urls).isLossless = true ∧
    (option (option (option (@int types urls .u64)))).cast
      ((option (option (option (@int types urls .u64)))).toValue (some (some none))) = .ok none ∧
    (option (@value types urls)).cast ((option (@value types urls)).toValue (some .undefined)) =
      .ok none ∧
    (option (option (@int types urls .u64))).cast
      ((option (option (@int types urls .u64))).toValue (some (some farNumber))) =
      .ok (some (some farNumber)) := by
  refine ⟨rfl, rfl, ?_, ?_, ?_⟩
  · exact (cast_toValue_nested (t := @int types urls .u64) rfl 2 (some (some none))).2.2.1
      (by rintro (h | ⟨y, h, -⟩) <;> cases h)
  · exact (cast_toValue_nested (t := @value types urls) rfl 0 (some .undefined)).2.2.1
      (by rintro (h | ⟨y, h, hy⟩) <;> cases h; exact hy rfl)
  · exact (cast_toValue_nested (t := @int types urls .u64) rfl 1 (some (some farNumber))).2.1.mpr
      (.inr ⟨farNumber, rfl,
        toValue_ne_undefined (t := @int types urls .u64) nofun (fun _ => nofun) farNumber⟩)

end KeyedRecord.MemberType
