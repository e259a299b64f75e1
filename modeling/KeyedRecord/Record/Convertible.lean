import KeyedRecord.Record.Schema

/-!
# What can be converted

Anything that has a dictionary and can be changed from one is convertible (`ObjDict`).  Both can be
asked for by their own names, or as an attribute that is read and written.  Records are convertible,
and so is a box with something convertible in it, which passes every call on.
-/

set_option autoImplicit false

namespace KeyedRecord.Record

/-- Conversion to a dictionary, and change from a dictionary in place; and both as an attribute
(`to_dict`, `from_dict`, `as_dict` and `set_as_dict`). -/
class Convertible (R : outParam Registry) (α : Type) where
  toDict : α → Dict R
  fromDict : Dict R → α → Except DictError Unit × α
  asDict : α → Dict R
  setAsDict : Dict R → α → Except DictError Unit × α

/-- A conversion is called by its own name, or as an attribute that is read and written. -/
inductive Style where
  | conversion
  | asAttribute
  deriving DecidableEq, Repr

namespace Convertible

variable {R : Registry} {α : Type} [Convertible R α]

/-- The dictionary, in either style. -/
def read (a : α) : Style → Dict R
  | .conversion => toDict a
  | .asAttribute => asDict a

/-- Change from a dictionary, in either style. -/
def write (d : Dict R) (a : α) : Style → Except DictError Unit × α
  | .conversion => fromDict d a
  | .asAttribute => setAsDict d a

end Convertible

variable {R : Registry} {τ : Type} [MemberTypes R τ]

/-- A record of a type. -/
structure Instance (S : Schema τ) where
  state : S.State

namespace Instance

variable {S : Schema τ}

/-- The dictionary of a record. -/
def toDict (r : Instance S) : Dict R := S.toDict r.state

/-- Change of a record from a dictionary. -/
def fromDict (d : Dict R) (r : Instance S) : Except DictError Unit × Instance S :=
  let (result, state) := S.fromDict d r.state
  (result, ⟨state⟩)

end Instance

/-- The attribute of a record only delegates. -/
instance (S : Schema τ) : Convertible R (Instance S) where
  toDict := Instance.toDict
  fromDict := Instance.fromDict
  asDict := Instance.toDict
  setAsDict := Instance.fromDict

/-- A box (`Box`). -/
structure Boxed (α : Type) where
  content : α

namespace Boxed

variable {α : Type}

/-- Pass a change on to what is in the box. -/
def pass {β : Type} (change : α → β × α) (b : Boxed α) : β × Boxed α :=
  let (result, content) := change b.content
  (result, ⟨content⟩)

end Boxed

instance (α : Type) [Convertible R α] : Convertible R (Boxed α) where
  toDict b := Convertible.toDict b.content
  fromDict d := Boxed.pass (Convertible.fromDict d)
  asDict b := Convertible.asDict b.content
  setAsDict d := Boxed.pass (Convertible.setAsDict d)

end KeyedRecord.Record
