import KeyedRecord.Value.Payload

/-!
# Dynamic values

A value (`Value`) is of one of six kinds.  Two values are equal if they are of one kind and hold
equal things.  Reals are compared by the rules of their standard, and payloads as the left one has
it: by the comparison of its type, which fails where the right one is not of that type.
-/

set_option autoImplicit false

namespace KeyedRecord

/-- A dynamic value. -/
inductive Value (R : Registry) where
  | undefined
  | boolean (b : Bool)
  | integer (n : Integer)
  | real (x : Double)
  | string (s : String)
  | payload (o : Opaque R (Value R))

/-- The six kinds of values. -/
inductive ValueKind where
  | undefined
  | boolean
  | integer
  | real
  | string
  | payload
  deriving DecidableEq, Repr

variable {R : Registry}

/-- A thing of a type, with dynamic values in it. -/
abbrev PayloadType.Carrier (t : PayloadType R) : Type := Thing t (Value R)

/-! ## Equality -/

/-- A value together with the comparison of other values with it. -/
abbrev Value.Handed (R : Registry) : Type := Value R × (Value R → Bool)

/-- The equality that every registered type has of its own (`PartialEq`).  It may ask which values
are equal to those in the left thing, and these hand their comparisons on to it. -/
class OwnEquality (R : Registry) where
  equal : (i : R.Id) → Thing (.custom i : PayloadType R) (Value.Handed R) →
    Thing (.custom i : PayloadType R) (Value R) → Bool

/-- Comparison of things, of which the left one has the comparisons of its values with it. -/
def PayloadType.equalHanded [OwnEquality R] :
    (t : PayloadType R) → Thing t (Value.Handed R) → t.Carrier → Bool :=
  compare OwnEquality.equal fun v w => v.2 w

/-- Equality of values.  The recursion is on the left value. -/
def Value.equal [OwnEquality R] : Value R → Value R → Bool
  | .undefined, .undefined => true
  | .boolean a, .boolean b => a == b
  | .integer a, .integer b => decide (a = b)
  | .real a, .real b => a.equal b
  | .string a, .string b => a == b
  | .payload ⟨name, t, x, vs, comparedAs, hname, ht⟩, .payload b =>
    Opaque.equalAs PayloadType.equalHanded comparedAs
      ⟨name, t, x, fun p => (vs p, (vs p).equal), comparedAs, hname, ht⟩ b
  | _, _ => false

/-- Equality of things of a type. -/
def PayloadType.equal [OwnEquality R] (t : PayloadType R) (x y : t.Carrier) : Bool :=
  t.equalHanded (x.map fun v => (v, v.equal)) y

/-- Equality of payloads (`PartialEq` of `Opaque`): the left one says at which type both are
compared. -/
def Opaque.equal [OwnEquality R] (a b : Opaque R (Value R)) : Bool :=
  equalAs PayloadType.equal a.comparedAs a b

namespace Value

/-- Values with payloads are equal if the payloads are. -/
theorem equal_payload [OwnEquality R] (a b : Opaque R (Value R)) :
    (payload a).equal (payload b) = a.equal b := by
  have handed : (payload a).equal (payload b) =
      Opaque.equalAs PayloadType.equalHanded a.comparedAs (a.map fun v => (v, v.equal)) b := rfl
  rw [handed, Opaque.equal, Opaque.equalAs, Opaque.equalAs, Opaque.downcast?_map]
  cases a.downcast? a.comparedAs with
  | none => rfl
  | some x =>
    cases b.downcast? a.comparedAs with
    | none => rfl
    | some y => rfl

/-! ## Kinds -/

/-- The kind of a value. -/
def kind : Value R → ValueKind
  | undefined => .undefined
  | boolean _ => .boolean
  | integer _ => .integer
  | real _ => .real
  | string _ => .string
  | payload _ => .payload

/-- The name of what a value is (`kind_name`); a payload has the name of its type. -/
def kindName : Value R → String
  | undefined => "undefined"
  | boolean _ => "boolean"
  | integer _ => "integer"
  | real _ => "real"
  | string _ => "string"
  | payload o => o.typeName

instance : Inhabited (Value R) := ⟨undefined⟩

/-- The value that holds a thing as a payload (`Value::opaque`). -/
def ofThing {t : PayloadType R} (x : t.Carrier) : Value R := payload (.new x)

/-! ## Views -/

/-- The text of a string. -/
def string? : Value R → Option String
  | string s => some s
  | _ => none

/-- What an opaque value carries. -/
def payload? : Value R → Option (Opaque R (Value R))
  | payload o => some o
  | _ => none

end Value

end KeyedRecord
