import KeyedRecord.Text.Split
import KeyedRecord.Url.Percent

/-!
# Hosts

The host of a special scheme is a domain or an address.  A domain whose last label is a number is an
address of the fourth version and has to be a good one; text in brackets is an address of the sixth
version.  For other schemes a host without brackets is plain text.

Domains are ASCII here: a label beyond ASCII is refused.
-/

set_option autoImplicit false

namespace KeyedRecord.Url

/-! ## Addresses of the fourth version -/

/-- A number whose digits have the given base. -/
def baseNumber? (base : Nat) (cs : List Char) : Option Nat :=
  cs.foldlM (fun n c =>
    match Text.hexValue? c with
    | some v => if v < base then some (base * n + v) else none
    | none => none) 0

/-- A part of an address: hexadecimal behind `0x`, octal behind a zero, and else decimal. -/
def addressPart? : List Char → Option Nat
  | [] => none
  | '0' :: 'x' :: ds => baseNumber? 16 ds
  | '0' :: 'X' :: ds => baseNumber? 16 ds
  | '0' :: d :: ds => baseNumber? 8 (d :: ds)
  | ds => baseNumber? 10 ds

/-- The parts of a domain between dots.  One dot at the end says nothing. -/
def labels (name : List Char) : List (List Char) :=
  let parts := Text.stretches (· == '.') name
  if 1 < parts.length ∧ parts.getLast? = some [] then parts.dropLast else parts

/-- A decimal digit. -/
def isDigit (c : Char) : Bool := decide ('0' ≤ c ∧ c ≤ '9')

/-- The last label is a number, or all of digits. -/
def endsInNumber (name : List Char) : Bool :=
  match (labels name).getLast? with
  | none => false
  | some last => (!last.isEmpty && last.all isDigit) || (addressPart? last).isSome

/-- The number of an address: every part but the last is one byte, and the last is the rest. -/
def addressNumber? (parts : List Nat) : Option Nat :=
  match parts.getLast? with
  | none => none
  | some last =>
    let bytes := parts.dropLast
    if bytes.length < 4 ∧ bytes.all (· < 256) ∧ last < Nat.pow 256 (4 - bytes.length) then
      some (bytes.foldl (fun n b => 256 * n + b) 0 * Nat.pow 256 (4 - bytes.length) + last)
    else none

/-- The address that a domain which ends in a number stands for. -/
def address4? (name : List Char) : Option Nat := do
  addressNumber? (← (labels name).mapM addressPart?)

/-- A number in decimal. -/
def decimal (n : Nat) : List Char := (toString n).toList

/-- The four bytes of an address, with dots between them. -/
def address4Text (n : Nat) : List Char :=
  Text.joined '.' ((List.range 4).map fun i => decimal (n / Nat.pow 256 (3 - i) % 256))

/-! ## Addresses of the sixth version -/

/-- One to four digits. -/
def piece? (cs : List Char) : Option Nat :=
  if 1 ≤ cs.length ∧ cs.length ≤ 4 then baseNumber? 16 cs else none

/-- A byte in decimal, without leading zeros. -/
def byte? (cs : List Char) : Option Nat :=
  match cs with
  | [] => none
  | ['0'] => some 0
  | '0' :: _ => none
  | ds => (baseNumber? 10 ds).bind fun n => if n < 256 then some n else none

/-- The two pieces of four bytes with dots between them. -/
def dottedPieces? (cs : List Char) : Option (List Nat) := do
  match ← (Text.stretches (· == '.') cs).mapM byte? with
  | [a, b, c, d] => return [256 * a + b, 256 * c + d]
  | _ => none

/-- Pieces; the last of them may be spelled as four bytes. -/
def pieces? (mayBeDotted : Bool) : List (List Char) → Option (List Nat)
  | [] => some []
  | [g] => if mayBeDotted && g.contains '.' then dottedPieces? g else return [← piece? g]
  | g :: gs => return (← piece? g) :: (← pieces? mayBeDotted gs)

/-- Pieces with colons between them; no text has none. -/
def readPieces (mayBeDotted : Bool) (cs : List Char) : Option (List Nat) :=
  if cs = [] then some [] else pieces? mayBeDotted (Text.stretches (· == ':') cs)

/-- What stands before and behind the first double colon. -/
def atDoubleColon : List Char → Option (List Char × List Char)
  | ':' :: ':' :: r => some ([], r)
  | c :: r => (atDoubleColon r).map fun (a, b) => (c :: a, b)
  | [] => none

/-- The eight pieces of an address.  A double colon stands for at least one piece of zero. -/
def address6? (cs : List Char) : Option (List Nat) :=
  match atDoubleColon cs with
  | none => do
    let pieces ← readPieces true cs
    if pieces.length = 8 then some pieces else none
  | some (before, behind) => do
    let high ← readPieces false before
    let low ← readPieces true behind
    let known := high.length + low.length
    if known < 8 then some (high ++ List.replicate (8 - known) 0 ++ low) else none

/-- The first longest stretch of zeros: where it starts, and its length. -/
def longestZeros (pieces : List Nat) : Nat × Nat :=
  let run (i : Nat) := ((pieces.drop i).takeWhile (· == 0)).length
  (List.range pieces.length).foldl (fun best i => if best.2 < run i then (i, run i) else best)
    (0, 0)

/-- An address; its first longest stretch of two or more zeros is a double colon. -/
def address6Text (pieces : List Nat) : List Char :=
  let joined (ps : List Nat) := Text.joined ':' (ps.map Text.hexDigits)
  let (start, count) := longestZeros pieces
  if count < 2 then joined pieces
  else joined (pieces.take start) ++ [':', ':'] ++ joined (pieces.drop (start + count))

/-! ## Hosts -/

/-- What a URL points at. -/
inductive Host where
  | domain (name : List Char)
  | address4 (number : Nat)
  | address6 (pieces : List Nat)
  | plain (text : List Char)
  deriving DecidableEq, Repr

namespace Host

/-- What no host may hold. -/
def forbidden : List Char :=
  ['\x00', '\t', '\n', '\r', ' ', '#', '/', ':', '<', '>', '?', '@', '[', '\\', ']', '^', '|']

/-- A domain holds neither these nor controls nor percent signs. -/
def forbiddenInDomain (c : Char) : Bool := isControl c || c == '%' || forbidden.contains c

/-- The address between brackets. -/
def bracketed? (r : List Char) : Option Host :=
  if r.getLast? = some ']' then address6 <$> address6? r.dropLast else none

/-- The host of a special scheme. -/
def special? : List Char → Option Host
  | '[' :: r => bracketed? r
  | cs => do
    let name := (← decodeAscii cs).map Char.toLower
    if name = [] ∨ name.any forbiddenInDomain then none
    else if endsInNumber name then address4 <$> address4? name
    else some (domain name)

/-- The host of any other scheme. -/
def plain? : List Char → Option Host
  | '[' :: r => bracketed? r
  | cs => if cs.any forbidden.contains then none else some (plain (encode isControl cs))

/-- The text of a host. -/
def text : Host → List Char
  | domain name => name
  | address4 n => address4Text n
  | address6 pieces => '[' :: address6Text pieces ++ [']']
  | plain t => t

end Host

end KeyedRecord.Url
