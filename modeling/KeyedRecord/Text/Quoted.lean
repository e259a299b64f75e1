import KeyedRecord.Text.PrintableChars

/-!
# Quoted text

The written form of a text between double quotes.  A reader of the written form sees every
character: the quote, the backslash and the common control characters have a short escape, and a
character without a visible form is spelled by its code point, `\u{...}`.

A NUL before an octal digit takes two digits, so that no reader mistakes the pair for an octal
escape.

This is the `Debug` of a text, which is what messages and generated string literals are written
with.
-/

set_option autoImplicit false

namespace KeyedRecord.Text

/-- The digit of value `n`, for `n < 16`, in lower case. -/
def hexDigit (n : Nat) : Char :=
  if n < 10 then Char.ofNat ('0'.toNat + n) else Char.ofNat ('a'.toNat + (n - 10))

/-- The value of a hexadecimal digit of either case. -/
def hexValue? (c : Char) : Option Nat :=
  if '0' ≤ c ∧ c ≤ '9' then some (c.toNat - '0'.toNat)
  else if 'a' ≤ c ∧ c ≤ 'f' then some (c.toNat - 'a'.toNat + 10)
  else if 'A' ≤ c ∧ c ≤ 'F' then some (c.toNat - 'A'.toNat + 10)
  else none

/-- The digits of `n` in base sixteen, without leading zeros; zero is one digit. -/
def hexDigits (n : Nat) : List Char :=
  if n < 16 then [hexDigit n] else hexDigits (n / 16) ++ [hexDigit (n % 16)]
termination_by n
decreasing_by omega

/-- One character of a quoted text. -/
def escapeChar (c : Char) : List Char :=
  if c = '\x00' then ['\\', '0']
  else if c = '\t' then ['\\', 't']
  else if c = '\r' then ['\\', 'r']
  else if c = '\n' then ['\\', 'n']
  else if c = '\\' then ['\\', '\\']
  else if c = '"' then ['\\', '"']
  else if isVisible c then [c]
  else ['\\', 'u', '\x7b'] ++ hexDigits c.toNat ++ ['\x7d']

/-- The next character is an octal digit. -/
def startsOctal : List Char → Bool
  | c :: _ => decide ('0' ≤ c ∧ c ≤ '7')
  | [] => false

/-- The characters between the quotes of a literal. -/
def escapeLiteral : List Char → List Char
  | [] => []
  | c :: r =>
    (if c = '\x00' ∧ startsOctal r = true then ['\\', 'x', '0', '0'] else escapeChar c)
      ++ escapeLiteral r

/-- The form of a text that a compiler reads. -/
def literal (s : String) : String :=
  String.ofList ('"' :: escapeLiteral s.toList ++ ['"'])

end KeyedRecord.Text
