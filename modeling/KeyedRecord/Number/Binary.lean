/-!
# Binary floating point

A format of the IEEE standard has a sign, an exponent and a fraction of fixed widths.  A number is
exactly these three fields, so every bit pattern is a number and equality of numbers is equality of
bit patterns; the standard's own comparison, where a zero has no sign and a NaN equals nothing, is
`Binary.equal`.

All arithmetic is exact until the last step.  `ofRatio` takes a quotient of natural numbers to the
nearest number of a format, to the even one of two, and conversion, multiplication and division are
that rounding applied to the exact result.

`Double` and `Single` are `f64` and `f32`, with the comparison of `PartialEq` and the conversions of
`as`.
-/

set_option autoImplicit false

namespace KeyedRecord

/-- The widths of the fields of a binary format. -/
structure Format where
  exponentBits : Nat
  fractionBits : Nat
  deriving DecidableEq, Repr

namespace Format

/-- 32 bits. -/
def single : Format := ⟨8, 23⟩

/-- 64 bits. -/
def double : Format := ⟨11, 52⟩

/-- The exponent field of infinities and NaNs. -/
def topExponent (f : Format) : Nat := Nat.pow 2 f.exponentBits - 1

/-- The exponent of the last fraction bit of the smallest numbers. -/
def leastExponent (f : Format) : Int := 2 - Nat.pow 2 (f.exponentBits - 1) - f.fractionBits

end Format

/-- A number of a format, by its fields. -/
structure Binary (f : Format) where
  negative : Bool
  exponent : Fin (Nat.pow 2 f.exponentBits)
  fraction : Fin (Nat.pow 2 f.fractionBits)
  deriving DecidableEq

/-- A number of 32 bits. -/
abbrev Single := Binary .single

/-- A number of 64 bits. -/
abbrev Double := Binary .double

namespace Binary

variable {f : Format}

/-- The low bits of a natural number. -/
def low (width n : Nat) : Fin (Nat.pow 2 width) :=
  ⟨n % Nat.pow 2 width, Nat.mod_lt _ (Nat.two_pow_pos width)⟩

/-! ## Fields and bits -/

/-- The number with the bit pattern `n`. -/
def ofBits (f : Format) (n : Nat) : Binary f where
  negative := n.testBit (f.exponentBits + f.fractionBits)
  exponent := low f.exponentBits (n / Nat.pow 2 f.fractionBits)
  fraction := low f.fractionBits n

/-- The bit pattern of a number. -/
def toBits (x : Binary f) : Nat :=
  (if x.negative then Nat.pow 2 (f.exponentBits + f.fractionBits) else 0) +
    x.exponent.val * Nat.pow 2 f.fractionBits + x.fraction.val

/-- The number is no number at all. -/
def isNaN (x : Binary f) : Bool := x.exponent.val == f.topExponent && x.fraction.val != 0

/-- The number is one of the two infinities. -/
def isInfinite (x : Binary f) : Bool := x.exponent.val == f.topExponent && x.fraction.val == 0

/-- The number is one of the two zeros. -/
def isZero (x : Binary f) : Bool := x.exponent.val == 0 && x.fraction.val == 0

/-- The magnitude of a finite number is `significand * 2 ^ scale`. -/
def significand (x : Binary f) : Nat :=
  if x.exponent.val = 0 then x.fraction.val else x.fraction.val + Nat.pow 2 f.fractionBits

/-- The magnitude of a finite number is `significand * 2 ^ scale`. -/
def scale (x : Binary f) : Int :=
  f.leastExponent + (if x.exponent.val = 0 then 0 else (x.exponent.val : Int) - 1)

/-- The zero of a sign. -/
def zero (f : Format) (negative : Bool) : Binary f := ⟨negative, low _ 0, low _ 0⟩

/-- The infinity of a sign. -/
def infinity (f : Format) (negative : Bool) : Binary f := ⟨negative, low _ f.topExponent, low _ 0⟩

/-- The quiet NaN without a sign and without a message. -/
def nan (f : Format) : Binary f :=
  ⟨false, low _ f.topExponent, low _ (Nat.pow 2 (f.fractionBits - 1))⟩

/-! ## Comparison -/

/-- Equality of the standard: a NaN equals nothing, and zeros are equal. -/
def equal (x y : Binary f) : Bool :=
  if x.isNaN || y.isNaN then false
  else if x.isZero && y.isZero then true
  else decide (x = y)

/-! ## Rounding -/

/-- The natural number nearest to a quotient; of two, the even one. -/
def roundEven (num den : Nat) : Nat :=
  let q := num / den
  let r := num % den
  if 2 * r < den then q else if den < 2 * r then q + 1 else q + q % 2

/-- `2 ^ e` as a factor of the numerator or of the denominator. -/
def scaled (num den : Nat) (e : Int) : Nat × Nat :=
  if 0 ≤ e then (num * Nat.pow 2 e.toNat, den) else (num, den * Nat.pow 2 (-e).toNat)

/-- The greatest `e` with `2 ^ e ≤ num / den`, for a positive quotient. -/
def floorLog (num den : Nat) : Int :=
  let e : Int := (num.log2 : Int) - den.log2
  let (n, d) := scaled num den (-e)
  if d ≤ n then e else e - 1

/-- The number with significand `s` at the scale of the exponent field `b`; a significand of one bit
too many belongs to the next exponent. -/
def assemble (f : Format) (negative : Bool) (s b : Nat) : Binary f :=
  let unit := Nat.pow 2 f.fractionBits
  let (s, b) := if 2 * unit ≤ s then (s / 2, b + 1) else (s, b)
  if s < unit then ⟨negative, low _ 0, low _ s⟩
  else if f.topExponent ≤ b then infinity f negative
  else ⟨negative, low _ b, low _ (s - unit)⟩

/-- The number nearest to a quotient, of two the one with the even significand. -/
def ofRatio (f : Format) (negative : Bool) (num den : Nat) : Binary f :=
  if num = 0 then zero f negative else
  let e := max (floorLog num den - f.fractionBits) f.leastExponent
  let (n, d) := scaled num den (-e)
  assemble f negative (roundEven n d) ((e - f.leastExponent).toNat + 1)

/-- The number nearest to an integer. -/
def ofInt (f : Format) (n : Int) : Binary f := ofRatio f (decide (n < 0)) n.natAbs 1

/-- The magnitude of a finite number as a quotient. -/
def ratio (x : Binary f) : Nat × Nat := scaled x.significand 1 x.scale

/-- The same number in another format, or the nearest one. -/
def convert {f : Format} (g : Format) (x : Binary f) : Binary g :=
  if x.isNaN then nan g
  else if x.isInfinite then infinity g x.negative
  else ofRatio g x.negative x.ratio.1 x.ratio.2

end Binary

end KeyedRecord
