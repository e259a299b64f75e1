import KeyedRecord.Policy
import KeyedRecord.Value.Member

/-!
# The fields of a record

A record type lists its fields, and a state of the record is a thing for each of them.  A field is
reached by its position, so a state can be asked for any field and changed in any field, and fields
that a change does not name keep what they hold.
-/

set_option autoImplicit false

namespace KeyedRecord.Record

/-- A field: its name, its type, and what is declared about it. -/
structure Field (τ : Type) where
  name : String
  type : τ
  policy : Policy
  deriving DecidableEq

variable {R : Registry} {τ : Type}

/-- The type of the field at a position. -/
abbrev FieldType (fields : List (Field τ)) (i : Fin fields.length) : τ := (fields.get i).type

/-- A thing for each field. -/
def State [MemberTypes R τ] (fields : List (Field τ)) : Type :=
  (i : Fin fields.length) → MemberTypes.Carrier (FieldType fields i)

namespace State

variable [MemberTypes R τ] {fields : List (Field τ)}

/-- What a field holds. -/
def get (s : State fields) (i : Fin fields.length) : MemberTypes.Carrier (FieldType fields i) := s i

/-- The state with one field changed. -/
def set (s : State fields) (i : Fin fields.length) (x : MemberTypes.Carrier (FieldType fields i)) :
    State fields :=
  fun j => if h : i = j then h ▸ x else s j

@[simp] theorem get_set_self (s : State fields) (i : Fin fields.length)
    (x : MemberTypes.Carrier (FieldType fields i)) : (s.set i x).get i = x := by
  simp [get, set]

theorem get_set_of_ne (s : State fields) {i j : Fin fields.length}
    (x : MemberTypes.Carrier (FieldType fields i)) (h : i ≠ j) : (s.set i x).get j = s.get j := by
  simp [get, set, h]

theorem ext {s t : State fields} (h : ∀ i, s.get i = t.get i) : s = t := funext h

end State

end KeyedRecord.Record
