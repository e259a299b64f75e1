import KeyedRecord.Table
import KeyedRecord.Value.Member

/-!
# Dictionaries

A dictionary holds values under keys.  The order of its keys has no meaning: two dictionaries are
equal if they have the same keys and equal values under them.

Looking up a member finds a missing key and a value that cannot be cast to be different faults, also
for a member that could do without a value.

The fault is `DictError`, with the two cases `KeyNotFound` and `TypeMismatch`, and the lookup is
`get_as`.
-/

set_option autoImplicit false

namespace KeyedRecord

/-- Values under keys (`Dict`). -/
abbrev Dict (R : Registry) := Table (Value R)

/-- Why a member cannot be read from a dictionary (`DictError`). -/
inductive DictError where
  | keyNotFound (key : String)
  | typeMismatch (key : String) (source : CastError)
  deriving DecidableEq, Repr

namespace DictError

/-- The key of the member. -/
def key : DictError → String
  | keyNotFound key => key
  | typeMismatch key _ => key

/-- The failed cast behind the fault, if there is one. -/
def source : DictError → Option CastError
  | keyNotFound _ => none
  | typeMismatch _ source => some source

/-- The wording of a fault. -/
def message : DictError → String
  | keyNotFound key => "key not found: " ++ key
  | typeMismatch key source => "type mismatch for key " ++ key ++ ": " ++ source.message

end DictError

namespace Dict

variable {R : Registry}

/-- Equality of dictionaries: that of hash maps, by lookups. -/
def equal [OwnEquality R] (a b : Dict R) : Bool :=
  a.size == b.size && a.entries.all fun (key, v) =>
    match b.get? key with
    | some w => v.equal w
    | none => false

/-- The thing of a type under a key (`get_as`). -/
def getAs {τ : Type} [MemberTypes R τ] (d : Dict R) (t : τ) (key : String) :
    Except DictError (MemberTypes.Carrier t) :=
  match d.get? key with
  | none => .error (.keyNotFound key)
  | some v => (MemberTypes.cast t v).mapError (.typeMismatch key)

end Dict

end KeyedRecord
