import KeyedRecord.Calendar.Rfc3339
import KeyedRecord.Url.Format
import KeyedRecord.Uuid
import KeyedRecord.Value.CastError

/-!
# The types of members

A member has a type, and a thing of the type has a value (`ToValue`).  The way back is a cast
(`FromValue`).  Any types with these two can be the types of members: `MemberTypes`.

Those that the library itself provides are a `MemberType`.  Their casts take every value that some
thing of the type has and a few more: reals take integers, and text is read in every form of its
format.  An option adds no layer to the value: nothing is the undefined value, and something is what
it holds.  An integer type of 64 bits or more falls back to a payload of its own type when the
number is none of those that a value can hold.
-/

set_option autoImplicit false

namespace KeyedRecord

open Calendar (DateTime)

/-- Names of types that members can have: the things of each, their values and the cast of a value.
-/
class MemberTypes (R : outParam Registry) (τ : Type) where
  Carrier : τ → Type
  toValue : (t : τ) → Carrier t → Value R
  cast : (t : τ) → Value R → Except CastError (Carrier t)

/-- The types with conversions of the library's own.  A custom type is one that is registered with
`opaque_value!`. -/
inductive MemberType (R : Registry) (U : UrlFormat) where
  | int (t : IntType)
  | single
  | double
  | boolean
  | character
  | string
  | uuid
  | dateTime
  | url
  | value
  | custom (i : R.Id)
  | option (t : MemberType R U)
  deriving DecidableEq

namespace MemberType

variable {R : Registry} {U : UrlFormat}

/-- A thing of a type. -/
abbrev Carrier : MemberType R U → Type
  | int t => Bounded t
  | single => Single
  | double => Double
  | boolean => Bool
  | character => Char
  | string => String
  | uuid => Uuid
  | dateTime => DateTime
  | url => U.Url
  | value => Value R
  | custom i => (PayloadType.custom i : PayloadType R).Carrier
  | option t => Option t.Carrier

/-- The name of a type in a failed cast.  An option has the name of what it holds. -/
def name : MemberType R U → String
  | int t => t.name
  | single => "f32"
  | double => "f64"
  | boolean => "bool"
  | character => "char"
  | string => "String"
  | uuid => "Uuid"
  | dateTime => "DateTime<Utc>"
  | url => "Url"
  | value => (PayloadType.value : PayloadType R).name
  | custom i => (PayloadType.custom i : PayloadType R).name
  | option t => t.name

/-! ## Values of things -/

/-- The value of a number of an integer type (`to_value` in `impl_int!` and `impl_wide_int!`). -/
def intToValue (t : IntType) (n : Bounded t) : Value R :=
  match Bounded.ofInt? .i64 n.val with
  | some m => .integer m
  | none => .ofThing (.number n)

/-- The value of a thing (`to_value`). -/
def toValue : (t : MemberType R U) → t.Carrier → Value R
  | int t, n => intToValue t n
  | single, x => .real (x.convert .double)
  | double, x => .real x
  | boolean, b => .boolean b
  | character, c => .string (String.singleton c)
  | string, s => .string s
  | uuid, u => .string u.text
  | dateTime, d => .string d.text
  | url, u => .string (U.text u)
  | value, v => v
  | custom _, x => .ofThing x
  | option _, none => .undefined
  | option t, some x => t.toValue x

/-! ## Casts -/

/-- The thing, or the failure of a cast from text in a format. -/
def orMalformed {α : Type} (expected : String) (format : TextFormat) :
    Option α → Except CastError α
  | some a => .ok a
  | none => .error ⟨expected, .malformed format⟩

/-- The number of an integer type that a value holds (`from_value` in `impl_int!` and
`impl_wide_int!`). -/
def castInt (t : IntType) (v : Value R) : Except CastError (Bounded t) :=
  match v with
  | .integer n =>
    match Bounded.ofInt? t n.val with
    | some m => .ok m
    | none => .error ⟨t.name, .outOfRange⟩
  | .payload o =>
    match if t.isWide then o.downcast? (.int t) else none with
    | some x => .ok x.data
    | none => .error (v.refusedBy t.name)
  | _ => .error (v.refusedBy t.name)

/-- The number of a format that a value holds, or the nearest one (`impl_real!`). -/
def castReal (expected : String) (f : Format) (ofDouble : Double → Binary f) (v : Value R) :
    Except CastError (Binary f) :=
  match v with
  | .real x => .ok (ofDouble x)
  | .integer n => .ok (Binary.ofInt f n.val)
  | _ => .error (v.refusedBy expected)

/-- The thing that a text stands for. -/
def castText {α : Type} (expected : String) (read : String → Except CastError α) (v : Value R) :
    Except CastError α :=
  match v with
  | .string s => read s
  | _ => .error (v.refusedBy expected)

/-- The only character of a text. -/
def onlyCharacter? (s : String) : Option Char :=
  match s.toList with
  | [c] => some c
  | _ => none

/-- The character that a value holds.  Text of any other length is no character. -/
def castCharacter (expected : String) (v : Value R) : Except CastError Char :=
  match v.string?.bind onlyCharacter? with
  | some c => .ok c
  | none => .error (v.refusedBy expected)

/-- The boolean that a value holds. -/
def castBoolean (expected : String) (v : Value R) : Except CastError Bool :=
  match v with
  | .boolean b => .ok b
  | _ => .error (v.refusedBy expected)

/-- The thing of a type that a value stands for (`from_value`). -/
def cast : (t : MemberType R U) → Value R → Except CastError t.Carrier
  | int t, v => castInt t v
  | t@single, v => castReal t.name .single (Binary.convert .single) v
  | t@double, v => castReal t.name .double id v
  | t@boolean, v => castBoolean t.name v
  | t@character, v => castCharacter t.name v
  | t@string, v => castText t.name .ok v
  | t@uuid, v => castText t.name (orMalformed t.name .uuid ∘ Uuid.parse?) v
  | t@dateTime, v => castText t.name (orMalformed t.name .timestamp ∘ DateTime.parse?) v
  | t@url, v => castText t.name (orMalformed t.name .url ∘ U.parse?) v
  | value, v => .ok v
  | custom i, v => v.downcast (.custom i)
  | option t, v =>
    match v with
    | .undefined => .ok none
    | _ => some <$> t.cast v

instance : MemberTypes R (MemberType R U) := ⟨Carrier, toValue, cast⟩

end MemberType

end KeyedRecord
