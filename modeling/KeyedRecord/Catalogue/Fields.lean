import KeyedRecord.Record.Schema

/-!
# Sample fields

How a field of a sample type is declared: with a name, a type and one of a few policies.
-/

set_option autoImplicit false

namespace KeyedRecord.Catalogue

open Record

/-- What is held before anything is written, where the type leaves it open. -/
class Defaults (R : Registry) (U : UrlFormat) where
  url : U.Url
  custom : (i : R.Id) → (PayloadType.custom i : PayloadType R).Carrier

section

variable {R : Registry} {U : UrlFormat} [Defaults R U]

/-- What a member of a type holds before anything is written to it. -/
def initial : (t : MemberType R U) → t.Carrier
  | .int t => .zero t
  | .single => .zero .single false
  | .double => .zero .double false
  | .boolean => false
  | .character => '\x00'
  | .string => ""
  | .uuid => .nil
  | .dateTime => .epoch
  | .url => Defaults.url R
  | .value => .undefined
  | .custom i => Defaults.custom U i
  | .option _ => none

/-- What every field holds before anything is written to it. -/
def initialState (fields : List (Record.Field (MemberType R U))) : State fields := fun i =>
  initial (FieldType fields i)

end

/-- A record type with a state to start from. -/
structure Sample (R : Registry) (U : UrlFormat) where
  schema : Schema (MemberType R U)
  start : schema.State

namespace Sample

variable {R : Registry} {U : UrlFormat} [Defaults R U]

/-- A record type without properties.  Every field starts with what its type starts with. -/
def ofFields (fields : List (Record.Field (MemberType R U)))
    (h : (fields.map Record.Field.name).Nodup) :
    Sample R U where
  schema := ⟨fields, [], h⟩
  start := initialState fields

end Sample

/-! ## Policies -/

/-- A public member. -/
def published : Policy := ⟨true, false, false⟩

/-- A member that is not public. -/
def hidden : Policy := ⟨false, false, false⟩

/-- A member that is included, public or not. -/
def include_ (p : Policy) : Policy := { p with included := true }

/-- A member that is ignored, whatever else it is. -/
def ignore (p : Policy) : Policy := { p with ignored := true }

end KeyedRecord.Catalogue
