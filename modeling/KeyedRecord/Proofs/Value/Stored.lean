import KeyedRecord.Proofs.Number.Rounding
import KeyedRecord.Proofs.Value.Text

/-!
# The stored form of a value

A type takes more values than its things have: integers for reals, reals that are rounded,
identifiers in any spelling, and numbers in payloads of their own type that a value holds directly.
What the cast makes of such a value has the stored form of it, and this is a value that casts to the
same thing.  So the stored form of a stored form is the form itself: `cast_toValue_of_cast`.

Points in time are left out, since some are written as text that is not read.  Of URLs it is asked
that parsing the text of a parsed URL gives this URL.
-/

set_option autoImplicit false

namespace KeyedRecord

namespace MemberType

variable {R : Registry} {U : UrlFormat}

/-- The type under all layers of options. -/
def base : MemberType R U → MemberType R U
  | option t => t.base
  | t => t

/-- The form in which a type stores a value that it takes. -/
def stored (t : MemberType R U) (v : Value R) : Except CastError (Value R) := t.toValue <$> t.cast v

/-! ## Reals -/

/-- A number of 32 bits survives, unless it is a NaN that the conversion does not give. -/
theorem survives_single {x : Single} (h : x.isNaN = false ∨ x = .nan .single) :
    (@single R U).Survives x := by
  have hconvert : (x.convert .double).convert .single = x := by
    rcases h with h | rfl
    · exact Binary.convert_convert Binary.single_within_double h
    · decide
  exact congrArg Except.ok hconvert

/-- Rounding gives no NaN but the one. -/
theorem isNaN_of_cast_single {v : Value R} {x : Single} (h : (@single R U).cast v = .ok x) :
    x.isNaN = false ∨ x = .nan .single := by
  have hrange : 0 < Format.single.topExponent := by decide
  cases v with
  | real y =>
    obtain rfl : y.convert .single = x := Except.ok.inj h
    cases hx : (y.convert .single).isNaN with
    | false => exact .inl rfl
    | true => exact .inr (Binary.convert_eq_nan hrange hx)
  | integer n =>
    obtain rfl : Binary.ofInt .single n.val = x := Except.ok.inj h
    exact .inl (Binary.isNaN_ofRatio hrange _ _ _)
  | _ => cases h

/-! ## Text -/

/-- A URL that a value casts to is read from the text of the value. -/
theorem exists_of_cast_url {v : Value R} {u : U.Url} (h : (@url R U).cast v = .ok u) :
    ∃ s, v = .string s ∧ U.parse? s = some u := by
  cases v with
  | string s =>
    refine ⟨s, rfl, ?_⟩
    change orMalformed _ .url (U.parse? s) = .ok u at h
    cases hu : U.parse? s with
    | none => rw [hu] at h; cases h
    | some u' => rw [hu] at h; cases h; rfl
  | _ => cases h

/-- A text that is parsed as a URL casts to it. -/
theorem cast_url {s : String} {u : U.Url} (h : U.parse? s = some u) :
    (@url R U).cast (.string s) = .ok u :=
  congrArg (orMalformed (@url R U).name .url) h

/-! ## Every type -/

/-- What a value casts to survives. -/
theorem survives_of_cast (hurl : U.Rereads) {t : MemberType R U} {v : Value R} {x : t.Carrier}
    (hbase : t.base ≠ .dateTime) (h : t.cast v = .ok x) : t.Survives x := by
  induction t with
  | int t => exact survives_int t x
  | single => exact survives_single (isNaN_of_cast_single h)
  | double => exact survives_double x
  | boolean => exact survives_boolean x
  | character => exact survives_character x
  | string => exact survives_string x
  | uuid => exact survives_uuid x
  | dateTime => exact absurd rfl hbase
  | url =>
    obtain ⟨s, rfl, hs⟩ := exists_of_cast_url h
    exact survives_url_iff.mpr (hurl s x hs)
  | value => exact survives_value x
  | custom i => exact survives_custom i x
  | option t ih =>
    by_cases hv : v = .undefined
    · subst hv
      cases h
      exact survives_none t
    · -- The cast of the option is the cast of the type, which never gives what stands for nothing.
      obtain ⟨y, hy, rfl⟩ := exists_of_cast_option hv h
      exact survives_some_iff.mpr ⟨toValue_ne_undefined_of_cast hv hy, ih hbase hy⟩

/-- **Casting is a retraction onto stored forms.**  What a value casts to is what its own value
casts to, so storing what was stored changes nothing. -/
theorem cast_toValue_of_cast (hurl : U.Rereads) {t : MemberType R U} (hbase : t.base ≠ .dateTime)
    (v : Value R) :
    (∀ x, t.cast v = .ok x → t.cast (t.toValue x) = .ok x) ∧
      (t.stored v >>= t.stored) = t.stored v := by
  have hsurvives : ∀ x, t.cast v = .ok x → t.cast (t.toValue x) = .ok x := fun x h =>
    survives_of_cast hurl hbase h
  refine ⟨hsurvives, ?_⟩
  unfold stored
  cases h : t.cast v with
  | error e => rfl
  | ok x =>
    change t.toValue <$> t.cast (t.toValue x) = .ok (t.toValue x)
    rw [hsurvives x h]
    rfl

/-! ## Samples -/

theorem ok_bind {ε α β : Type} (a : α) (f : α → Except ε β) : (Except.ok a >>= f) = f a := rfl

open Catalogue

/-- A URL that is not spelled as its own text. -/
def spelledUrl : Value types := .string "HTTP://Example.COM:80/a/../b c?x=1'#f"

theorem stored_spelledUrl :
    (option (option (@url types urls))).stored spelledUrl =
      .ok (.string "http://example.com/b%20c?x=1%27#f") := by
  have htext : (urls.parse? "HTTP://Example.COM:80/a/../b c?x=1'#f").map urls.text =
      some "http://example.com/b%20c?x=1%27#f" := by
    decide +kernel
  obtain ⟨u, hu, htext⟩ := Option.map_eq_some_iff.mp htext
  have hcast : (@url types urls).cast spelledUrl = .ok u := cast_url hu
  change url.option.option.toValue <$> some <$> some <$> url.cast spelledUrl = _
  rw [hcast, ← htext]
  rfl

/-- The stored form of a URL under two options, an integer that a number of 32 bits only comes near,
and a NaN in a payload under an option. -/
theorem cast_toValue_of_cast_samples :
    urls.Rereads ∧ (option (option (@url types urls))).base ≠ .dateTime ∧
    (option (option (@url types urls))).stored (.string "http://example.com/b%20c?x=1%27#f") =
      .ok (.string "http://example.com/b%20c?x=1%27#f") ∧
    (@single types urls).cast ((@single types urls).toValue (.ofInt .single 16777217)) =
      .ok (.ofInt .single 16777217) ∧
    (option (@custom types urls .reading)).cast
      ((option (@custom types urls .reading)).toValue (some (reading "m" (.nan .double)))) =
      .ok (some (reading "m" (.nan .double))) := by
  have hurl : urls.Rereads := Url.format.rereads_settled
  have hbase {R : Registry} {U : UrlFormat} : (option (option (@url R U))).base ≠ .dateTime := nofun
  have hsingle := (cast_toValue_of_cast hurl (t := @single types urls) nofun
    (.integer ⟨16777217, by decide⟩)).1 _ rfl
  have hreading := (cast_toValue_of_cast hurl (t := option (@custom types urls .reading)) nofun
    (.ofThing (reading "m" (.nan .double)))).1 _ rfl
  have hspelled := (cast_toValue_of_cast hurl hbase spelledUrl).2
  rw [stored_spelledUrl, ok_bind] at hspelled
  exact ⟨hurl, hbase, hspelled, hsingle, hreading⟩

end MemberType

end KeyedRecord
