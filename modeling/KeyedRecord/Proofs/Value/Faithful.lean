import KeyedRecord.Proofs.Calendar.Distinct
import KeyedRecord.Proofs.Uuid
import KeyedRecord.Proofs.Value.Equality
import KeyedRecord.Proofs.Value.Integers

/-!
# Values that tell things apart

The values of two things of a type are equal exactly if the things are, by the equality that the
type itself has: `isFaithful_of_isFlat`.  Values add no layer for an option, so this is said of
types with at most one, and none around dynamic values.  A thing equals itself unless it bears a
NaN: `equal_self_iff`.
-/

set_option autoImplicit false

namespace KeyedRecord

namespace MemberType

open Calendar (DateTime)

variable {R : Registry} {U : UrlFormat}

/-- Equality of things of a type.  Numbers of floating point are compared by the rules of their
standard, URLs by their texts, and things of a registered type as that type does. -/
def equal [OwnEquality R] : (t : MemberType R U) → t.Carrier → t.Carrier → Bool
  | int _, n, m => decide (n = m)
  | single, x, y => x.equal y
  | double, x, y => x.equal y
  | boolean, a, b => decide (a = b)
  | character, a, b => decide (a = b)
  | string, a, b => decide (a = b)
  | uuid, u, v => decide (u = v)
  | dateTime, d, e => decide (d = e)
  | url, u, v => decide (U.text u = U.text v)
  | value, v, w => v.equal w
  | custom i, x, y => (PayloadType.custom i).equal x y
  | option t, some x, some y => t.equal x y
  | option _, none, none => true
  | option _, _, _ => false

/-- A NaN is in a thing of a type. -/
def bearsNaN [OwnNaN R] : (t : MemberType R U) → t.Carrier → Bool
  | single, x => x.isNaN
  | double, x => x.isNaN
  | value, v => v.bearsNaN
  | custom i, x => (PayloadType.custom i).bearsNaN x
  | option t, some x => t.bearsNaN x
  | option _, none => false
  | int _, _ | boolean, _ | character, _ | string, _ | uuid, _ | dateTime, _ | url, _ => false

/-- The type has at most one layer of options, and none around dynamic values. -/
def isFlat : MemberType R U → Bool
  | option (option _) | option value => false
  | _ => true

/-- The values of two things are equal exactly if the things are. -/
def IsFaithful [OwnEquality R] (t : MemberType R U) : Prop :=
  ∀ x y : t.Carrier, (t.toValue x).equal (t.toValue y) = t.equal x y

/-! ## Type by type -/

section

variable [OwnEquality R]

/-- Equal numbers are stored in the same way, since the way depends on nothing but the number. -/
theorem isFaithful_int (t : IntType) : (int t : MemberType R U).IsFaithful := by
  intro n m
  change (intToValue (R := R) t n).equal (intToValue t m) = decide (n = m)
  rcases Int.lt_or_le 9223372036854775807 n.val with hn | hn
  · rcases Int.lt_or_le 9223372036854775807 m.val with hm | hm
    · rw [intToValue_of_lt hn, intToValue_of_lt hm]
      exact (Value.equal_payload _ _).trans (Opaque.equal_new _ _)
    · have hne : n ≠ m := fun h => absurd (h ▸ hm) (Int.not_le.mpr hn)
      rw [intToValue_of_lt hn, intToValue_of_le hm, decide_eq_false hne]
      rfl
  · rcases Int.lt_or_le 9223372036854775807 m.val with hm | hm
    · have hne : n ≠ m := fun h => absurd (h ▸ hn) (Int.not_le.mpr hm)
      rw [intToValue_of_le hn, intToValue_of_lt hm, decide_eq_false hne]
      rfl
    · rw [intToValue_of_le hn, intToValue_of_le hm]
      change decide (_ = _) = _
      rw [decide_eq_decide]
      exact ⟨fun h => Bounded.ext (Bounded.mk.inj h), fun h => h ▸ rfl⟩

theorem isFaithful_single : (single : MemberType R U).IsFaithful :=
  Binary.equal_convert Binary.single_within_double (by decide) (by decide) (by decide)

/-- A type is faithful whose things are stored as texts that tell them apart. -/
theorem equal_of_text {α : Type} [DecidableEq α] {text : α → String}
    (h : ∀ a b, text a = text b → a = b) (a b : α) :
    (Value.string (text a) : Value R).equal (.string (text b)) = decide (a = b) := by
  change (text a == text b) = decide (a = b)
  rw [Bool.eq_iff_iff, beq_iff_eq, decide_eq_true_iff]
  exact ⟨h a b, congrArg text⟩

theorem isFaithful_character : (character : MemberType R U).IsFaithful :=
  equal_of_text (fun a b h => by simpa using congrArg String.toList h)

theorem isFaithful_uuid : (uuid : MemberType R U).IsFaithful := by
  refine equal_of_text fun u v h => ?_
  have hu := u.parse?_text
  rw [h, Uuid.parse?_text] at hu
  exact (Option.some.inj hu).symm

theorem isFaithful_dateTime : (dateTime : MemberType R U).IsFaithful :=
  equal_of_text fun _ _ => DateTime.text_injective

theorem isFaithful_custom (i : R.Id) : (custom i : MemberType R U).IsFaithful := fun x y =>
  (Value.equal_payload _ _).trans (Opaque.equal_new x y)

/-- An option is faithful around a faithful type none of whose things is stored as undefined. -/
theorem isFaithful_option {t : MemberType R U} (ht : t.IsFaithful)
    (hu : ∀ x, t.toValue x ≠ .undefined) :
    t.option.IsFaithful := by
  have hkind : ∀ x, (t.toValue x).kind ≠ .undefined := by
    intro x hx
    refine hu x ?_
    cases hv : t.toValue x <;> rw [hv] at hx <;> first | rfl | cases hx
  intro x y
  cases x with
  | none =>
    cases y with
    | none => rfl
    | some y => exact Value.equal_of_kind_ne (hkind y).symm
  | some x =>
    cases y with
    | none => exact Value.equal_of_kind_ne (hkind x)
    | some y => exact ht x y

/-- Types other than options are faithful. -/
theorem isFaithful_of_ne_option {t : MemberType R U} (h : ∀ u, t ≠ .option u) : t.IsFaithful := by
  cases t with
  | int t => exact isFaithful_int t
  | single => exact isFaithful_single
  | double => exact fun _ _ => rfl
  | boolean => exact fun _ _ => rfl
  | character => exact isFaithful_character
  | string => exact fun _ _ => rfl
  | uuid => exact isFaithful_uuid
  | dateTime => exact isFaithful_dateTime
  | url => exact fun _ _ => rfl
  | value => exact fun _ _ => rfl
  | custom i => exact isFaithful_custom i
  | option u => exact absurd rfl (h u)

/-- **Values of flat types tell things apart.** -/
theorem isFaithful_of_isFlat {t : MemberType R U} (h : t.isFlat = true) : t.IsFaithful := by
  cases t with
  | option u =>
    have hoption : ∀ w, u ≠ .option w := by
      rintro w rfl
      cases h
    have hvalue : u ≠ .value := by
      rintro rfl
      cases h
    exact isFaithful_option (isFaithful_of_ne_option hoption) (toValue_ne_undefined hvalue hoption)
  | _ => exact isFaithful_of_ne_option nofun

end

-- A second layer of options is lost.
example :
    let t : MemberType Catalogue.types Catalogue.urls := option (option boolean)
    (t.toValue (some none)).equal (t.toValue none) = true ∧ t.equal (some none) none = false := by
  decide

/-! ## A thing and itself -/

/-- A thing equals itself unless it bears a NaN. -/
theorem equal_self_iff [OwnEquality R] [OwnNaN R] (hown : OwnEquality.IsLawful R)
    {t : MemberType R U}
    {x : t.Carrier} :
    t.equal x x = true ↔ t.bearsNaN x = false := by
  induction t with
  | single => exact Binary.equal_self_iff
  | double => exact Binary.equal_self_iff
  | value => exact (Value.equalAt hown x).self_iff
  | custom i => exact (PayloadType.equalAt hown x fun p => Value.equalAt hown (x.values p)).self_iff
  | option t ih =>
    cases x with
    | none => exact iff_of_true rfl rfl
    | some x => exact ih
  | _ => exact iff_of_true (decide_eq_true rfl) rfl

end MemberType

end KeyedRecord
