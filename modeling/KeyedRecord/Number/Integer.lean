/-!
# Bounded integers

The ten integer types are intervals of the integers.  A number of a type is an integer together with
the proof that it lies in the type's interval, so that a cast between types is a comparison of
bounds and never changes a number.

These are the types of `impl_int!` and `impl_wide_int!`; the comparison of bounds is `try_from`.
-/

set_option autoImplicit false

namespace KeyedRecord

/-- The integer types.  Those of pointer size have 64 bits. -/
inductive IntType where
  | i8
  | i16
  | i32
  | i64
  | isize
  | u8
  | u16
  | u32
  | u64
  | usize
  deriving DecidableEq, Repr

namespace IntType

/-- The name of the type. -/
def name : IntType → String
  | i8 => "i8"
  | i16 => "i16"
  | i32 => "i32"
  | i64 => "i64"
  | isize => "isize"
  | u8 => "u8"
  | u16 => "u16"
  | u32 => "u32"
  | u64 => "u64"
  | usize => "usize"

/-- The number of bits. -/
def bits : IntType → Nat
  | i8 | u8 => 8
  | i16 | u16 => 16
  | i32 | u32 => 32
  | i64 | isize | u64 | usize => 64

/-- The type has negative numbers. -/
def signed : IntType → Bool
  | i8 | i16 | i32 | i64 | isize => true
  | u8 | u16 | u32 | u64 | usize => false

/-- The least number of the type. -/
def least (t : IntType) : Int := if t.signed then -(Nat.pow 2 (t.bits - 1)) else 0

/-- The greatest number of the type. -/
def greatest (t : IntType) : Int :=
  if t.signed then Nat.pow 2 (t.bits - 1) - 1 else Nat.pow 2 t.bits - 1

/-- The number lies in the type's interval. -/
def Holds (t : IntType) (n : Int) : Prop := t.least ≤ n ∧ n ≤ t.greatest

instance (t : IntType) (n : Int) : Decidable (t.Holds n) :=
  inferInstanceAs (Decidable (_ ∧ _))

/-- The type may hold numbers that 64 bits with a sign do not, or is as wide as a pointer. -/
def isWide : IntType → Bool
  | isize | u64 | usize => true
  | _ => false

/-- The number of numbers that the type has. -/
def size (t : IntType) : Int := Nat.pow 2 t.bits

theorem size_pos (t : IntType) : 0 < t.size := by cases t <;> decide

theorem size_ne_zero (t : IntType) : t.size ≠ 0 := by cases t <;> decide

/-- A remainder beyond the greatest number stands for a negative one. -/
theorem holds_wrapped (t : IntType) {r : Int} (h0 : 0 ≤ r) (h1 : r < t.size) :
    t.Holds (if t.greatest < r then r - t.size else r) := by
  have hs : t.greatest - t.least + 1 = t.size := by cases t <;> decide
  have hl : t.least ≤ 0 := by cases t <;> decide
  have hg : 0 ≤ t.greatest := by cases t <;> decide
  unfold Holds
  split <;> omega

theorem holds_zero (t : IntType) : t.Holds 0 := by cases t <;> decide

end IntType

/-- A number of an integer type. -/
structure Bounded (t : IntType) where
  val : Int
  holds : t.Holds val
  deriving DecidableEq

namespace Bounded

theorem ext {t : IntType} {n m : Bounded t} (h : n.val = m.val) : n = m := by
  cases n
  cases m
  cases h
  rfl

/-- The number of a type that an integer is, if the type holds it. -/
def ofInt? (t : IntType) (n : Int) : Option (Bounded t) :=
  if h : t.Holds n then some ⟨n, h⟩ else none

/-- Zero. -/
def zero (t : IntType) : Bounded t := ⟨0, t.holds_zero⟩

/-- The number of a type that agrees with an integer in all bits that the type has. -/
def wrap (t : IntType) (n : Int) : Bounded t :=
  let r := n % t.size
  ⟨if t.greatest < r then r - t.size else r, t.holds_wrapped (n.emod_nonneg t.size_ne_zero)
    (n.emod_lt_of_pos t.size_pos)⟩

end Bounded

/-- Integers of 64 bits with a sign, the numbers that a dynamic value holds directly. -/
abbrev Integer := Bounded .i64

end KeyedRecord
