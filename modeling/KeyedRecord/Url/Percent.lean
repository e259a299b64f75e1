import KeyedRecord.Text.Quoted

/-!
# Percent-encoding

A character that may not stand in a part of a URL is spelled by the bytes of its UTF-8 form, each as
a percent sign and two digits in upper case.  What may not stand in a part is a set of ASCII
characters that grows from part to part; no character beyond ASCII may stand anywhere.
-/

set_option autoImplicit false

namespace KeyedRecord.Url

/-- The bytes of the UTF-8 form of a character. -/
def utf8Bytes (c : Char) : List Nat :=
  let n := c.toNat
  let last (k : Nat) := 0x80 + n / Nat.pow 64 k % 64
  if n < 0x80 then [n]
  else if n < 0x800 then [0xC0 + n / 64, last 0]
  else if n < 0x10000 then [0xE0 + n / 0x1000, last 1, last 0]
  else [0xF0 + n / 0x40000, last 2, last 1, last 0]

/-- The digit of value `n`, for `n < 16`, in upper case. -/
def upperHexDigit (n : Nat) : Char := (Text.hexDigit n).toUpper

/-- A byte, spelled. -/
def spelledByte (b : Nat) : List Char := ['%', upperHexDigit (b / 16), upperHexDigit (b % 16)]

/-! ## What is spelled in which part -/

/-- Control characters, of ASCII. -/
def isControl (c : Char) : Bool := decide (c.toNat < 0x20) || c == '\x7f'

/-- What is spelled in a fragment. -/
def inFragmentSet (c : Char) : Bool := isControl c || [' ', '"', '<', '>', '`'].contains c

/-- What is spelled in a query. -/
def inQuerySet (c : Char) : Bool := isControl c || [' ', '"', '#', '<', '>'].contains c

/-- What is spelled in the query of a special scheme. -/
def inSpecialQuerySet (c : Char) : Bool := inQuerySet c || c == '\''

/-- What is spelled in a path. -/
def inPathSet (c : Char) : Bool := inFragmentSet c || ['#', '?', '\x7b', '\x7d'].contains c

/-- What is spelled in a user's name or password. -/
def inUserSet (c : Char) : Bool :=
  inPathSet c || ['/', ':', ';', '=', '@', '[', '\\', ']', '^', '|'].contains c

/-- A text with every character of a set spelled, and every one beyond ASCII. -/
def encode (set : Char → Bool) (cs : List Char) : List Char :=
  cs.flatMap fun c =>
    if 0x80 ≤ c.toNat || set c then (utf8Bytes c).flatMap spelledByte else [c]

/-- A text with every spelled byte written out; none if one is beyond ASCII.  A percent sign without
two digits stands for itself. -/
def decodeAscii : List Char → Option (List Char)
  | [] => some []
  | '%' :: a :: b :: r =>
    match Text.hexValue? a, Text.hexValue? b with
    | some high, some low =>
      if high < 8 then (Char.ofNat (16 * high + low) :: ·) <$> decodeAscii r else none
    | _, _ => ('%' :: ·) <$> decodeAscii (a :: b :: r)
  | c :: r => if c.toNat < 0x80 then (c :: ·) <$> decodeAscii r else none

end KeyedRecord.Url
