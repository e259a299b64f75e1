/-!
# Which members take part

A member takes part in a conversion if it is not ignored, if it is public or included, and if it can
be both read and written.  The first of these that fails is the reason why a member is left out, so
`ignored` wins over `included`.

The order of the reasons is that of the tests in `select`.
-/

set_option autoImplicit false

namespace KeyedRecord

/-- What is declared about a member. -/
structure Policy where
  isPublic : Bool
  included : Bool
  ignored : Bool
  deriving DecidableEq, Repr

/-- Why a member does not take part. -/
inductive Exclusion where
  | ignored
  | hidden
  | notReadWrite
  deriving DecidableEq, Repr

/-- The wording of a reason. -/
def Exclusion.message : Exclusion → String
  | ignored => "ignored"
  | hidden => "not public and not included"
  | notReadWrite => "property is not read-write"

/-- The first reason against a member (`select`), of which it is known whether it can be read and
written. -/
def Policy.exclusion (p : Policy) (readWrite : Bool) : Option Exclusion :=
  if p.ignored then some .ignored
  else if !p.isPublic && !p.included then some .hidden
  else if !readWrite then some .notReadWrite
  else none

end KeyedRecord
