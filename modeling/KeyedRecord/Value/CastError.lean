import KeyedRecord.Value.Basic

/-!
# Failed casts

A cast fails for one of three reasons: the value is of a kind that the type does not take, its
number is none of the type's, or its text is not in the type's format.

This is `CastError`, with its `expected` and `found`.
-/

set_option autoImplicit false

namespace KeyedRecord

/-- The formats that text is read in. -/
inductive TextFormat where
  | uuid
  | timestamp
  | url
  deriving DecidableEq, Repr

/-- What was found where a type was asked for. -/
inductive Found where
  /-- A value of this kind. -/
  | kind (name : String)
  /-- An integer that is none of the type's. -/
  | outOfRange
  /-- Text that is not in a format. -/
  | malformed (format : TextFormat)
  deriving DecidableEq, Repr

namespace Found

/-- The wording of what was found. -/
def text : Found → String
  | kind name => name
  | outOfRange => "out-of-range integer"
  | malformed .uuid => "malformed uuid string"
  | malformed .timestamp => "malformed RFC 3339 string"
  | malformed .url => "malformed url string"

end Found

/-- A value could not be cast to the type of the name `expected` (`CastError`). -/
structure CastError where
  expected : String
  found : Found
  deriving DecidableEq, Repr

namespace CastError

/-- The wording of a failed cast. -/
def message (e : CastError) : String := "expected " ++ e.expected ++ ", found " ++ e.found.text

end CastError

namespace Value

variable {R : Registry}

/-- The failure of a cast that does not take values of this kind. -/
def refusedBy (v : Value R) (expected : String) : CastError := ⟨expected, .kind v.kindName⟩

/-- What a payload of a type holds (`downcast_opaque`). -/
def downcast (v : Value R) (t : PayloadType R) : Except CastError t.Carrier :=
  match v.payload?.bind (Opaque.downcast? t) with
  | some x => .ok x
  | none => .error (v.refusedBy t.name)

end Value

end KeyedRecord
