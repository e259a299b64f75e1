import KeyedRecord.Proofs.Number.Comparison
import KeyedRecord.Catalogue.Types

/-!
# Equality of values

Equality of values is symmetric and transitive, holds neither between values of different kinds nor
between payloads of different types, and holds between a value and itself unless the value bears a
NaN: `equal_laws`.

Payloads are compared as the left one has it (`Opaque.equalAs`).  That this is no preference for
either side follows from two facts: a payload is compared at its own type, and comparison at a type
fails as soon as one side is of another (`Opaque.equal_of_type_ne`).

A value is a thing of one of several sorts, and so is a payload.  Where things of one sort are
compared as the sort does, and things of different sorts are different, an equality is as good at a
thing as the equality of its sort: `EqualAt.of_sort`.  Payloads that hold values make this an
induction.
-/

set_option autoImplicit false

namespace KeyedRecord

/-! ## Equality at a thing -/

/-- An equality is symmetric and transitive at a thing, and the thing equals itself unless it is
marked. -/
structure EqualAt {α : Type} (eq : α → α → Bool) (marked : α → Bool) (a : α) : Prop where
  comm : ∀ b, eq a b = eq b a
  trans : ∀ b c, eq a b = true → eq b c = true → eq a c = true
  self_iff : eq a a = true ↔ marked a = false

/-- Things of a sort are compared as the sort does, and are different from all others. -/
structure IsSort {α β : Type} (wrap : α → β) (eq : α → α → Bool) (eq' : β → β → Bool) : Prop where
  same : ∀ a b, eq' (wrap a) (wrap b) = eq a b
  other : ∀ a b, (∀ c, b ≠ wrap c) → eq' (wrap a) b = false ∧ eq' b (wrap a) = false

namespace IsSort

variable {α β : Type} {wrap : α → β} {eq : α → α → Bool} {eq' : β → β → Bool}

theorem exists_of_equal (h : IsSort wrap eq eq') {a : α} {b : β} (hb : eq' (wrap a) b = true) :
    ∃ c, b = wrap c ∧ eq a c = true := by
  by_cases hc : ∃ c, b = wrap c
  · obtain ⟨c, rfl⟩ := hc
    exact ⟨c, rfl, (h.same a c).symm.trans hb⟩
  · rw [(h.other a b (not_exists.mp hc)).1] at hb
    cases hb

end IsSort

namespace EqualAt

variable {α β : Type}

theorem of_sort {wrap : α → β} {eq : α → α → Bool} {eq' : β → β → Bool} {marked : α → Bool}
    {marked' : β → Bool} (h : IsSort wrap eq eq') (hm : ∀ a, marked' (wrap a) = marked a) {a : α}
    (ha : EqualAt eq marked a) : EqualAt eq' marked' (wrap a) where
  comm b := by
    by_cases hb : ∃ c, b = wrap c
    · obtain ⟨c, rfl⟩ := hb
      rw [h.same, h.same, ha.comm]
    · obtain ⟨h1, h2⟩ := h.other a b (not_exists.mp hb)
      rw [h1, h2]
  trans b c hb hc := by
    obtain ⟨b, rfl, hab⟩ := h.exists_of_equal hb
    obtain ⟨c, rfl, hbc⟩ := h.exists_of_equal hc
    rw [h.same]
    exact ha.trans b c hab hbc
  self_iff := by
    rw [h.same, hm]
    exact ha.self_iff

/-- Things that are compared by what they have of another kind. -/
theorem comap {eq : β → β → Bool} {marked : β → Bool} (f : α → β) {a : α}
    (h : EqualAt eq marked (f a)) :
    EqualAt (fun x y => eq (f x) (f y)) (fun x => marked (f x)) a where
  comm b := h.comm (f b)
  trans b c := h.trans (f b) (f c)
  self_iff := h.self_iff

/-- Things that are compared in two ways at once. -/
theorem and {eq eq' : α → α → Bool} {marked marked' : α → Bool} {a : α} (h : EqualAt eq marked a)
    (h' : EqualAt eq' marked' a) :
    EqualAt (fun x y => eq x y && eq' x y) (fun x => marked x || marked' x) a where
  comm b := by rw [h.comm, h'.comm]
  trans b c hb hc := by
    rw [Bool.and_eq_true] at hb hc ⊢
    exact ⟨h.trans b c hb.1 hc.1, h'.trans b c hb.2 hc.2⟩
  self_iff := by rw [Bool.and_eq_true, Bool.or_eq_false_iff, h.self_iff, h'.self_iff]

/-- Things that are compared as they are. -/
theorem of_decide [DecidableEq α] (a : α) :
    EqualAt (fun a b : α => decide (a = b)) (fun _ => false) a where
  comm b := by rw [decide_eq_decide, eq_comm]
  trans b c hab hbc := by
    rw [of_decide_eq_true hab]
    exact hbc
  self_iff := by simp

theorem of_number {f : Format} (x : Binary f) : EqualAt Binary.equal Binary.isNaN x where
  comm y := x.equal_comm y
  trans _ _ := Binary.equal_trans
  self_iff := Binary.equal_self_iff

end EqualAt

/-! ## NaNs -/

/-- Which things of the registered types bear a NaN, given which of the values in them do. -/
class OwnNaN (R : Registry) where
  bearsNaN : (i : R.Id) → Thing (.custom i : PayloadType R) Bool → Bool

variable {R : Registry}

section

variable [OwnNaN R]

/-- A NaN is in a thing of a type, in its data or in one of the values that are marked. -/
def PayloadType.marksNaN : (t : PayloadType R) → Thing t Bool → Bool
  | int _, _ => false
  | single, x => Binary.isNaN x.data
  | double, x => Binary.isNaN x.data
  | value, x => x.values ()
  | custom i, x => OwnNaN.bearsNaN i x

/-- A NaN is in the value, directly or in a payload, at whatever depth. -/
def Value.bearsNaN : Value R → Bool
  | .real x => x.isNaN
  | .payload ⟨_, t, x, vs, _, _, _⟩ => t.marksNaN ⟨x, fun p => (vs p).bearsNaN⟩
  | _ => false

/-- A NaN is in a thing of a type. -/
def PayloadType.bearsNaN (t : PayloadType R) (x : t.Carrier) : Bool :=
  t.marksNaN (x.map Value.bearsNaN)

/-- A NaN is in what a payload holds. -/
def Opaque.bearsNaN (o : Opaque R (Value R)) : Bool := o.type.bearsNaN o.thing

end

variable [OwnEquality R]

/-- The registered types compare as well as values do: the own equality of a type is symmetric and
transitive, and fails to be reflexive only on NaNs, at every thing in which equality of values is.
Structural equality is of this sort. -/
def OwnEquality.IsLawful (R : Registry) [OwnEquality R] [OwnNaN R] : Prop :=
  ∀ (i : R.Id) (x : (PayloadType.custom i : PayloadType R).Carrier),
    (∀ p, EqualAt Value.equal Value.bearsNaN (x.values p)) →
      EqualAt (PayloadType.custom i).equal (PayloadType.custom i).bearsNaN x

/-! ## Payloads by their types -/

namespace Opaque

/-- Payloads of one type are compared as the type does. -/
theorem equal_new {t : PayloadType R} (x y : t.Carrier) : (new x).equal (new y) = t.equal x y := by
  have hx : (new x).downcast? (new x).comparedAs = some x := downcast?_new x
  have hy : (new y).downcast? (new x).comparedAs = some y := downcast?_new y
  rw [Opaque.equal, equalAs, hx, hy]
  rfl

/-- Payloads of different types are different, whichever of them says how to compare. -/
theorem equal_of_type_ne {o q : Opaque R (Value R)} (h : o.type ≠ q.type) : o.equal q = false := by
  have hq : q.downcast? o.comparedAs = none := downcast?_of_ne (o.comparedAs_eq ▸ h.symm)
  rw [Opaque.equal, equalAs, hq]
  cases o.downcast? o.comparedAs <;> rfl

theorem isSort (t : PayloadType R) : IsSort (new (t := t)) t.equal Opaque.equal where
  same := equal_new
  other x q hq := by
    have hne : q.type ≠ t := by
      rintro rfl
      exact hq q.thing q.new_thing.symm
    exact ⟨equal_of_type_ne hne.symm, equal_of_type_ne hne⟩

end Opaque

variable [OwnNaN R]

/-- A thing is as good as what is in it. -/
theorem PayloadType.equalAt (hown : OwnEquality.IsLawful R) {t : PayloadType R} (x : t.Carrier)
    (hx : ∀ p, EqualAt Value.equal Value.bearsNaN (x.values p)) :
    EqualAt t.equal t.bearsNaN x := by
  cases t with
  | int t =>
    exact .comap (fun y : Thing (.int t : PayloadType R) (Value R) => y.data) (.of_decide x.data)
  | single =>
    exact .comap (fun y : Thing (.single : PayloadType R) (Value R) => y.data) (.of_number x.data)
  | double =>
    exact .comap (fun y : Thing (.double : PayloadType R) (Value R) => y.data) (.of_number x.data)
  | value => exact .comap (fun y : Thing (.value : PayloadType R) (Value R) => y.values ()) (hx ())
  | custom i => exact hown i x hx

/-! ## Values by their kinds -/

namespace Value

variable {v w : Value R}

omit [OwnEquality R] [OwnNaN R] in
theorem kind_eq_boolean_iff : v.kind = .boolean ↔ ∃ b, v = .boolean b := by
  cases v <;> simp [kind]

omit [OwnEquality R] [OwnNaN R] in
theorem kind_eq_integer_iff : v.kind = .integer ↔ ∃ n, v = .integer n := by
  cases v <;> simp [kind]

omit [OwnEquality R] [OwnNaN R] in
theorem kind_eq_real_iff : v.kind = .real ↔ ∃ x, v = .real x := by
  cases v <;> simp [kind]

omit [OwnEquality R] [OwnNaN R] in
theorem kind_eq_string_iff : v.kind = .string ↔ ∃ s, v = .string s := by
  cases v <;> simp [kind]

omit [OwnEquality R] [OwnNaN R] in
theorem kind_eq_payload_iff : v.kind = .payload ↔ ∃ o, v = .payload o := by
  cases v <;> simp [kind]

omit [OwnNaN R] in
/-- Values of different kinds are different. -/
theorem equal_of_kind_ne (h : v.kind ≠ w.kind) : v.equal w = false := by
  cases v <;> cases w <;> first | rfl | exact absurd rfl h

/-- A value is as good as what it holds. -/
theorem equalAt_of_kind {α : Type} {wrap : α → Value R} {eq : α → α → Bool} {marked : α → Bool}
    {kind : ValueKind} (hkind : ∀ {v : Value R}, v.kind = kind ↔ ∃ a, v = wrap a)
    (same : ∀ a b, (wrap a).equal (wrap b) = eq a b)
      (hm : ∀ a, (wrap a).bearsNaN = marked a) {a : α}
    (ha : EqualAt eq marked a) : EqualAt Value.equal bearsNaN (wrap a) := by
  have hother : ∀ b v, (∀ c, v ≠ wrap c) → (wrap b).kind ≠ v.kind := by
    intro b v hv he
    obtain ⟨c, hc⟩ := hkind.mp (he.symm.trans (hkind.mpr ⟨b, rfl⟩))
    exact hv c hc
  refine .of_sort ⟨same, fun b v hv => ?_⟩ hm ha
  exact ⟨equal_of_kind_ne (hother b v hv), equal_of_kind_ne (hother b v hv).symm⟩

theorem equalAt_undefined : EqualAt Value.equal bearsNaN (.undefined : Value R) where
  comm v := by cases v <;> rfl
  trans v w hv hw := by
    cases v with
    | undefined => exact hw
    | _ => cases hv
  self_iff := iff_of_true rfl rfl

/-- **Every value is as good as the things in it.** -/
theorem equalAt (hown : OwnEquality.IsLawful R) : (v : Value R) → EqualAt Value.equal bearsNaN v
  | .undefined => equalAt_undefined
  | .boolean b => equalAt_of_kind kind_eq_boolean_iff (fun _ _ => rfl) (fun _ => rfl) (.of_decide b)
  | .integer n => equalAt_of_kind kind_eq_integer_iff (fun _ _ => rfl) (fun _ => rfl) (.of_decide n)
  | .real x => equalAt_of_kind kind_eq_real_iff (fun _ _ => rfl) (fun _ => rfl) (.of_number x)
  | .string s => equalAt_of_kind kind_eq_string_iff (fun _ _ => rfl) (fun _ => rfl) (.of_decide s)
  | .payload ⟨_, t, x, vs, _, rfl, rfl⟩ => by
    have hthing : EqualAt t.equal t.bearsNaN ⟨x, vs⟩ :=
      PayloadType.equalAt hown ⟨x, vs⟩ fun p => equalAt hown (vs p)
    have hpayload : EqualAt Opaque.equal Opaque.bearsNaN (Opaque.new (Thing.mk x vs)) :=
      .of_sort (Opaque.isSort t) (fun _ => rfl) hthing
    exact equalAt_of_kind kind_eq_payload_iff equal_payload (fun _ => rfl) hpayload

/-- **Equality of values is a partial equivalence, and fails to be reflexive only on NaNs.**  It is
symmetric and transitive, values of different kinds and payloads of different types are different,
and a value equals itself exactly if it bears no NaN, at whatever depth of payloads.  Numbers are
compared by the rules of their standard, and of the registered types it is asked that their own
equalities are as good. -/
theorem equal_laws (hown : OwnEquality.IsLawful R) (u v w : Value R) :
    u.equal v = v.equal u ∧
    (u.equal v = true → v.equal w = true → u.equal w = true) ∧
    (u.kind ≠ v.kind → u.equal v = false) ∧
    (∀ o q : Opaque R (Value R), o.type ≠ q.type → (payload o).equal (payload q) = false) ∧
    (u.equal u = true ↔ u.bearsNaN = false) := by
  refine ⟨(equalAt hown u).comm v, (equalAt hown u).trans v w, equal_of_kind_ne, fun o q h => ?_,
    (equalAt hown u).self_iff⟩
  rw [equal_payload]
  exact Opaque.equal_of_type_ne h

end Value

/-! ## Samples -/

namespace Catalogue

instance : OwnNaN types where
  bearsNaN
    | .colour, _ => false
    | .reading, x => Binary.isNaN x.data.2
    | .bundle, x => (List.finRange x.data).any x.values

theorem equalBundles_eq_true_iff {n m : Nat} {x : Fin n → Value types} {y : Fin m → Value types} :
    equalBundles (fun i => (x i, (x i).equal)) y = true ↔
      ∃ h : n = m, ∀ i, (x i).equal (y (i.cast h)) = true := by
  unfold equalBundles
  by_cases h : n = m
  · simp [h]
  · simp [h]

/-- Bundles are as good as the values in them. -/
theorem equalAt_bundle (x : bundleType.Carrier)
    (hx : ∀ p, EqualAt Value.equal Value.bearsNaN (x.values p)) :
    EqualAt bundleType.equal bundleType.bearsNaN x where
  comm y := by
    rw [Bool.eq_iff_iff]
    refine equalBundles_eq_true_iff.trans (Iff.trans ?_ equalBundles_eq_true_iff.symm)
    constructor
    · rintro ⟨h, he⟩
      exact ⟨h.symm, fun i => ((hx (i.cast h.symm)).comm (y.values i)).symm.trans
        (he (i.cast h.symm))⟩
    · rintro ⟨h, he⟩
      exact ⟨h.symm, fun i => ((hx i).comm (y.values (i.cast h.symm))).trans (he (i.cast h.symm))⟩
  trans y z hy hz := by
    obtain ⟨h, he⟩ := equalBundles_eq_true_iff.mp hy
    obtain ⟨h', he'⟩ := equalBundles_eq_true_iff.mp hz
    exact equalBundles_eq_true_iff.mpr ⟨h.trans h', fun i =>
      (hx i).trans _ _ (he i) (he' (i.cast h))⟩
  self_iff := by
    have hmark : bundleType.bearsNaN x = false ↔
        ∀ i, (x.values i).bearsNaN = false := by
      change (List.finRange x.data).any (fun i => (x.values i).bearsNaN) = false ↔ _
      simp
    rw [hmark]
    refine equalBundles_eq_true_iff.trans ⟨?_, fun h => ⟨rfl, fun i => (hx i).self_iff.mpr (h i)⟩⟩
    rintro ⟨_, he⟩ i
    exact (hx i).self_iff.mp (he i)

theorem isLawful_types : OwnEquality.IsLawful types
  | .colour, x, _ => .comap (fun y : colourType.Carrier => y.data) (.of_decide x.data)
  | .reading, x, _ =>
    .and (.comap (fun y : readingType.Carrier => y.data.1) (.of_decide x.data.1))
      (.comap (fun y : readingType.Carrier => y.data.2) (.of_number x.data.2))
  | .bundle, x, hx => equalAt_bundle x hx

/-- A reading in a bundle in a payload, beside a colour. -/
def buried (x : Double) : Value types :=
  .ofThing (.value
    (.ofThing (bundle [.ofThing (reading "m" x), .ofThing (colour (.zero .u8) (.zero .u8)
    (.zero .u8))])))

end Catalogue

namespace Value

open Catalogue

/-- Zeros of either sign are equal at this depth, a NaN is not equal to itself, and payloads of
different types are different even if they hold the same number, whichever is on the left. -/
theorem equal_laws_buried :
    OwnEquality.IsLawful types ∧
    (buried (.zero .double true)).equal (buried (.zero .double true)) = true ∧
    (buried (.nan .double)).equal (buried (.nan .double)) = false ∧
    (buried (.zero .double true)).equal (.real (.zero .double true)) = false ∧
    (ofThing (.number (.zero .u8)) : Value types).equal (ofThing (.number (.zero .u16))) =
      false := by
  obtain ⟨hcomm, htrans, -, htype, -⟩ := equal_laws isLawful_types (buried (.zero .double true))
    (buried (.zero .double false)) (buried (.zero .double true))
  have hzeros : (buried (.zero .double true)).equal (buried (.zero .double false)) =
    true := by decide
  obtain ⟨-, -, hkind, -, -⟩ := equal_laws isLawful_types (buried (.zero .double true))
    (.real (.zero .double true)) .undefined
  obtain ⟨-, -, -, -, hself⟩ := equal_laws isLawful_types
    (buried (.nan .double)) .undefined .undefined
  refine ⟨isLawful_types, htrans hzeros (hcomm ▸ hzeros), ?_, hkind (by decide),
    htype _ _ (by decide)⟩
  rw [Bool.eq_false_iff, Ne, hself]
  decide

end Value

end KeyedRecord
