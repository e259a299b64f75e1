import KeyedRecord.Text.Quoted

/-!
# Universally unique identifiers

An identifier is thirty-two hexadecimal digits.  It is written in lower case in five groups with
hyphens between them.  It is read from that form in either case, also between braces or behind the
prefix of its URN, and from the bare digits.

The reader is `Uuid::parse_str`, and the writer is the `Display` of `Uuid`.
-/

set_option autoImplicit false

namespace KeyedRecord

/-- An identifier of 128 bits, by its digits. -/
structure Uuid where
  digits : List (Fin 16)
  size : digits.length = 32
  deriving DecidableEq

namespace Uuid

/-- The identifier whose digits are all zero. -/
def nil : Uuid := ⟨List.replicate 32 0, List.length_replicate⟩

/-- How many digits stand in each group of the written form. -/
def groupSizes : List Nat := [8, 4, 4, 4, 12]

/-- What stands before the written form in a URN. -/
def urnPrefixes : List (List Char) := ["urn:uuid:".toList, "URN:UUID:".toList]

/-! ## Writing -/

/-- Digits in groups of the given sizes, with hyphens between them. -/
def grouped : List Nat → List (Fin 16) → List Char
  | [], _ => []
  | [n], ds => (ds.take n).map fun d => Text.hexDigit d.val
  | n :: sizes, ds =>
    (ds.take n).map (fun d => Text.hexDigit d.val) ++ '-' :: grouped sizes (ds.drop n)

/-- The written form. -/
def text (u : Uuid) : String := String.ofList (grouped groupSizes u.digits)

/-! ## Reading -/

/-- The value of a digit of either case. -/
def digit? (c : Char) : Option (Fin 16) :=
  match Text.hexValue? c with
  | some v => if h : v < 16 then some ⟨v, h⟩ else none
  | none => none

/-- Exactly `n` digits, and the rest. -/
def readDigits : Nat → List Char → Option (List (Fin 16) × List Char)
  | 0, cs => some ([], cs)
  | n + 1, c :: cs => do
    let d ← digit? c
    let (ds, rest) ← readDigits n cs
    return (d :: ds, rest)
  | _ + 1, [] => none

/-- Groups of the given sizes with hyphens between them, and nothing else. -/
def readGrouped : List Nat → List Char → Option (List (Fin 16))
  | [], cs => if cs = [] then some [] else none
  | [n], cs => do
    let (ds, rest) ← readDigits n cs
    if rest = [] then some ds else none
  | n :: sizes, cs => do
    let (ds, rest) ← readDigits n cs
    match rest with
    | '-' :: rest => return ds ++ (← readGrouped sizes rest)
    | _ => none

/-- What stands between braces. -/
def unbraced? : List Char → Option (List Char)
  | '\x7b' :: r => if r.getLast? = some '\x7d' then some r.dropLast else none
  | _ => none

/-- What stands behind the prefix of a URN. -/
def urnName? (cs : List Char) : Option (List Char) :=
  urnPrefixes.findSome? fun p => if p.isPrefixOf cs then some (cs.drop p.length) else none

/-- The digits of a text in any form that is read. -/
def readForms (cs : List Char) : Option (List (Fin 16)) :=
  readGrouped groupSizes cs
    <|> readGrouped [32] cs
    <|> (unbraced? cs).bind (readGrouped groupSizes)
    <|> (urnName? cs).bind (readGrouped groupSizes)

/-- The identifier that a text stands for. -/
def parse? (s : String) : Option Uuid := do
  let ds ← readForms s.toList
  if h : ds.length = 32 then some ⟨ds, h⟩ else none

end Uuid

end KeyedRecord
