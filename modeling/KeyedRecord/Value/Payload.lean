import KeyedRecord.Number.Binary
import KeyedRecord.Number.Integer

/-!
# The types of payloads

A value of none of the plain kinds travels as a payload, together with its type.  A payload type is
any type that can be compared: numbers and dynamic values are among them, and all others are given
by a `Registry`, so that what is said here is said of every type that is registered with
`opaque_value!`, or goes through `Value::opaque` directly.

A thing of a type is made of data and of dynamic values, which stand at places that depend on the
data. A number is data alone, a dynamic value is one place without data, and a list of dynamic
values is its length with that many places.
-/

set_option autoImplicit false

namespace KeyedRecord

/-- Types of payloads.  A type is known by its identity (`TypeId`); names may be shared. -/
structure Registry where
  Id : Type
  [decEq : DecidableEq Id]
  name : Id → String
  /-- What a thing holds besides dynamic values. -/
  Data : Id → Type
  /-- Where the dynamic values of a thing stand. -/
  Place : (i : Id) → Data i → Type

instance (R : Registry) : DecidableEq R.Id := R.decEq

/-- The types that a payload can have. -/
inductive PayloadType (R : Registry) where
  | int (t : IntType)
  | single
  | double
  | value
  | custom (i : R.Id)
  deriving DecidableEq

namespace PayloadType

variable {R : Registry}

/-- The full name of a type. -/
def name : PayloadType R → String
  | int t => t.name
  | single => "f32"
  | double => "f64"
  | value => "objdict::value::Value"
  | custom i => R.name i

/-- What a thing of a type holds besides dynamic values. -/
abbrev Data : PayloadType R → Type
  | int t => Bounded t
  | single => Single
  | double => Double
  | value => Unit
  | custom i => R.Data i

/-- Where the dynamic values of a thing stand. -/
abbrev Place : (t : PayloadType R) → t.Data → Type
  | int _, _ | single, _ | double, _ => Empty
  | value, _ => Unit
  | custom i, x => R.Place i x

end PayloadType

/-- A thing of a type, around values in `V`. -/
structure Thing {R : Registry} (t : PayloadType R) (V : Type) where
  data : t.Data
  values : t.Place data → V

namespace Thing

variable {R : Registry} {V W : Type} {t : PayloadType R}

/-- The thing with its values changed. -/
def map (f : V → W) (x : Thing t V) : Thing t W := ⟨x.data, fun p => f (x.values p)⟩

/-- A number as a payload. -/
abbrev number {t : IntType} (n : Bounded t) : Thing (.int t : PayloadType R) V := ⟨n, nofun⟩

/-- A value as a payload. -/
abbrev value (v : V) : Thing (.value : PayloadType R) V := ⟨(), fun _ => v⟩

end Thing

/-- A payload (`Opaque`): the name of its type, a thing together with its type, and the type at
which it is compared.  It is made from a thing, so name and comparison are those of the thing's
type. -/
structure Opaque (R : Registry) (V : Type) where
  typeName : String
  type : PayloadType R
  data : type.Data
  values : type.Place data → V
  comparedAs : PayloadType R
  typeName_eq : typeName = type.name
  comparedAs_eq : comparedAs = type

namespace Opaque

variable {R : Registry} {V W : Type}

/-- The payload that holds a thing. -/
def new {t : PayloadType R} (x : Thing t V) :
    Opaque R V := ⟨t.name, t, x.data, x.values, t, rfl, rfl⟩

/-- The thing that a payload holds. -/
def thing (o : Opaque R V) : Thing o.type V := ⟨o.data, o.values⟩

/-- What a payload holds, if it is of the type. -/
def downcast? (t : PayloadType R) (o : Opaque R V) : Option (Thing t V) :=
  if h : o.type = t then some (h ▸ o.thing) else none

/-- The payload with the values in it changed. -/
def map (f : V → W) (o : Opaque R V) : Opaque R W :=
  ⟨o.typeName, o.type, o.data, fun p => f (o.values p), o.comparedAs, o.typeName_eq,
    o.comparedAs_eq⟩

/-- Every payload was made from the thing that it holds. -/
theorem new_thing (o : Opaque R V) : new o.thing = o := by
  obtain ⟨_, t, x, vs, _, rfl, rfl⟩ := o
  rfl

variable {t u : PayloadType R}

@[simp] theorem type_new (x : Thing t V) : (new x).type = t := rfl

@[simp] theorem typeName_new (x : Thing t V) : (new x).typeName = t.name := rfl

/-- A payload gives back what was put into it. -/
@[simp] theorem downcast?_new (x : Thing t V) : (new x).downcast? t = some x := dif_pos rfl

/-- A payload gives nothing at another type. -/
theorem downcast?_of_ne {o : Opaque R V} (h : o.type ≠ t) : o.downcast? t = none := dif_neg h

theorem downcast?_map (f : V → W) (o : Opaque R V) (t : PayloadType R) :
    (o.map f).downcast? t = (o.downcast? t).map (Thing.map f) := by
  unfold downcast?
  by_cases h : o.type = t
  · subst h
    rw [dif_pos rfl]
    exact dif_pos rfl
  · rw [dif_neg h]
    exact dif_neg h

end Opaque

/-! ## Comparison -/

section

variable {R : Registry} {V W : Type}

/-- How things of one type are compared: numbers and dynamic values in their own ways, and things of
a registered type as that type does. -/
def PayloadType.compare (own : (i : R.Id) → Thing (.custom i : PayloadType R) V →
      Thing (.custom i : PayloadType R) W → Bool) (values : V → W → Bool) :
    (t : PayloadType R) → Thing t V → Thing t W → Bool
  | .int _, x, y => decide (x.data = y.data)
  | .single, x, y => Binary.equal x.data y.data
  | .double, x, y => Binary.equal x.data y.data
  | .value, x, y => values (x.values ()) (y.values ())
  | .custom i, x, y => own i x y

/-- Comparison at a type (`eq_as`): both payloads have to hold things of the type, and these are
compared. -/
def Opaque.equalAs (compare : (t : PayloadType R) → Thing t V → Thing t W → Bool)
    (t : PayloadType R)
    (a : Opaque R V) (b : Opaque R W) : Bool :=
  match a.downcast? t, b.downcast? t with
  | some x, some y => compare t x y
  | _, _ => false

end

end KeyedRecord
