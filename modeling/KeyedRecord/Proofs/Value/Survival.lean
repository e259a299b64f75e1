import KeyedRecord.Value.Member

/-!
# What survives the way through a value

A thing survives if it is what its value casts to.  Here are the types all of whose things do,
because their values say everything about them, and what it takes for something in an option to
survive: that it does without the option, and that its value is not the one that stands for nothing.
-/

set_option autoImplicit false

namespace KeyedRecord

/-! ## Numbers -/

theorem Bounded.ofInt?_val {t : IntType} (n : Bounded t) : Bounded.ofInt? t n.val = some n :=
  dif_pos n.holds

theorem Bounded.ofInt?_eq_none {t : IntType} {n : Int} (h : ¬ t.Holds n) :
    Bounded.ofInt? t n = none :=
  dif_neg h

/-- Numbers that a value does not hold directly are those of wide types. -/
theorem IntType.isWide_of_not_holds {t : IntType} {n : Int} (h : t.Holds n)
    (h64 : ¬ IntType.i64.Holds n) : t.isWide = true := by
  have hbounds : t.isWide = true ∨
      IntType.i64.least ≤ t.least ∧ t.greatest ≤ IntType.i64.greatest := by
    cases t <;> decide
  refine hbounds.resolve_right fun ⟨hl, hg⟩ => h64 ⟨?_, ?_⟩
  · exact Int.le_trans hl h.1
  · exact Int.le_trans h.2 hg

namespace MemberType

variable {R : Registry} {U : UrlFormat}

/-- The thing is what its value casts to. -/
def Survives (t : MemberType R U) (x : t.Carrier) : Prop := t.cast (t.toValue x) = .ok x

/-! ## Types whose things survive -/

/-- A number that a value does not hold directly travels with its type. -/
theorem castInt_intToValue (t : IntType) (n : Bounded t) :
    castInt t (intToValue (R := R) t n) = .ok n := by
  unfold intToValue
  by_cases h : IntType.i64.Holds n.val
  · have hn : Bounded.ofInt? .i64 n.val = some ⟨n.val, h⟩ := dif_pos h
    rw [hn]
    simp only [castInt, Bounded.ofInt?_val]
  · rw [Bounded.ofInt?_eq_none h]
    simp only [castInt, Value.ofThing, IntType.isWide_of_not_holds n.holds h, if_true,
      Opaque.downcast?_new]

theorem survives_int (t : IntType) (n : Bounded t) : (int t : MemberType R U).Survives n :=
  castInt_intToValue t n

theorem survives_double (x : Double) : (double : MemberType R U).Survives x := rfl

theorem survives_boolean (b : Bool) : (boolean : MemberType R U).Survives b := rfl

theorem survives_character (c : Char) : (character : MemberType R U).Survives c := by
  have honly : onlyCharacter? (String.singleton c) = some c := by
    simp [onlyCharacter?]
  change castCharacter (R := R) _ (.string (String.singleton c)) = .ok c
  simp only [castCharacter, Value.string?, Option.bind_some, honly]

theorem survives_string (s : String) : (string : MemberType R U).Survives s := rfl

theorem survives_value (v : Value R) : (value : MemberType R U).Survives v := rfl

theorem survives_custom (i : R.Id) (x : (custom i : MemberType R U).Carrier) :
    (custom i : MemberType R U).Survives x := by
  change (Value.ofThing x).downcast (.custom i) = .ok x
  simp only [Value.downcast, Value.ofThing, Value.payload?, Option.bind_some, Opaque.downcast?_new]

/-! ## Options -/

/-- An option adds nothing to the cast of a value that is not undefined. -/
theorem cast_option {t : MemberType R U} {v : Value R} (h : v ≠ .undefined) :
    t.option.cast v = some <$> t.cast v := by
  cases v with
  | undefined => exact absurd rfl h
  | _ => rfl

/-- What an option takes that is not undefined, the type takes without the option. -/
theorem exists_of_cast_option {t : MemberType R U} {v : Value R} {x : t.option.Carrier}
    (hv : v ≠ .undefined) (h : t.option.cast v = .ok x) : ∃ y, t.cast v = .ok y ∧ x = some y := by
  rw [cast_option hv] at h
  cases hc : t.cast v with
  | error e => rw [hc] at h; cases h
  | ok y => rw [hc] at h; exact ⟨y, rfl, (Except.ok.inj h).symm⟩

theorem survives_none (t : MemberType R U) : t.option.Survives none := rfl

/-- Something in an option survives exactly if it does without, and is not taken for nothing. -/
theorem survives_some_iff {t : MemberType R U} {x : t.Carrier} :
    t.option.Survives (some x) ↔ t.toValue x ≠ .undefined ∧ t.Survives x := by
  change t.option.cast (t.toValue x) = .ok (some x) ↔ _
  by_cases h : t.toValue x = .undefined
  · rw [h]
    simp [cast]
  · rw [cast_option h, Survives]
    cases t.cast (t.toValue x) <;> simp [h, Functor.map, Except.map]

/-- Only options and dynamic values are stored as the undefined value. -/
theorem toValue_ne_undefined {t : MemberType R U} (hv : t ≠ .value) (ho : ∀ u, t ≠ .option u)
    (x : t.Carrier) : t.toValue x ≠ .undefined := by
  cases t with
  | int t =>
    change intToValue (R := R) t x ≠ .undefined
    unfold intToValue
    split <;> exact nofun
  | value => exact absurd rfl hv
  | option u => exact absurd rfl (ho u)
  | _ => exact nofun

/-- What a cast makes of a value that is not undefined is not stored as the undefined value. -/
theorem toValue_ne_undefined_of_cast {t : MemberType R U} {v : Value R} {x : t.Carrier}
    (hv : v ≠ .undefined) (h : t.cast v = .ok x) : t.toValue x ≠ .undefined := by
  induction t with
  | value =>
    cases h
    exact hv
  | option t ih =>
    obtain ⟨y, hy, rfl⟩ := exists_of_cast_option hv h
    exact ih hy
  | _ =>
    refine toValue_ne_undefined ?_ ?_ _
    · exact nofun
    · exact fun _ => nofun

end MemberType

end KeyedRecord
