import KeyedRecord.Source.Lexer
import KeyedRecord.Source.Reader

/-!
# The text that a string literal stands for

The same automaton that finds the end of a literal says what each of its characters contributes, so
a literal that was lexed always has a text.  Source text inside a literal is read by `read`: a
failure inside it points at the literal as a whole, except that text without tokens points into the
text itself.

These are `LitStr::value` and `LitStr::parse`.
-/

set_option autoImplicit false

namespace KeyedRecord.Source

namespace Lexer.QuoteState

/-- The character that an escape of one letter stands for. -/
def simpleEscape : Char → Option Char
  | 'n' => some '\n'
  | 'r' => some '\r'
  | 't' => some '\t'
  | '\\' => some '\\'
  | '\'' => some '\''
  | '"' => some '"'
  | '0' => some '\x00'
  | _ => none

/-- What a character of a literal contributes to its text. -/
def emits : QuoteState → Char → Option Char
  | plain, c => if c = '\\' ∨ c = '\r' then none else some c
  | afterReturn, _ => some '\n'
  | afterBackslash, c => simpleEscape c
  | hexSecond first, c => (Text.hexValue? c).map fun v => Char.ofNat (first * 16 + v)
  | unicodeDigits value _, c => if c = '\x7d' then some (Char.ofNat value) else none
  | continued false, c =>
    if c = ' ' ∨ c = '\t' ∨ c = '\n' ∨ c = '\r' ∨ c = '\\' then none else some c
  | _, _ => none

end Lexer.QuoteState

/-- A string literal: its text, its suffix, and where it stands. -/
structure StringLiteral where
  value : String
  suffix : String
  span : Span
  deriving DecidableEq, Repr

namespace StringLiteral

open Lexer

/-- The text from a place inside the literal, and what is left behind the closing quote. -/
def decodeFrom : QuoteState → Chars → Scan
  | _, [] => none
  | st, c :: r =>
    match st.step .text '"' c with
    | .ends => some ([], r)
    | .goes st' => Scan.before (st.emits c).toList (decodeFrom st' r)
    | .refused => none

/-- The text and the suffix of a raw literal, from its marks on. -/
def decodeRaw (s : Chars) : Scan :=
  let marks := (s.takeWhile (· == '#')).length
  match s.dropWhile (· == '#') with
  | '"' :: r => (rawRest .text marks r).map fun (a, t) => (a.take (a.length - 1 - marks), t)
  | _ => none

/-- The text and the suffix of a literal; nothing for a literal of another kind. -/
def decode (text : String) : Option (String × String) :=
  let found := match text.toList with
    | '"' :: r => decodeFrom .plain r
    | 'r' :: r => decodeRaw r
    | _ => none
  found.map fun (a, t) => (String.ofList a, String.ofList t)

/-- The string literal that a token is. -/
def ofPlaced? (t : Placed) : Option StringLiteral :=
  match t.token with
  | .literal text => (decode text).map fun (value, suffix) => ⟨value, suffix, t.span⟩
  | _ => none

/-- Read the text of a literal as source. -/
def read {α : Type} (l : StringLiteral) (p : Reader α) : Except Problem α :=
  match lex l.value with
  | .error at? => .error ⟨.notTokens, some ⟨at?, at?⟩⟩
  | .ok ts =>
    match Reader.whole p ts with
    | .error e => .error ⟨e.cause, some l.span⟩
    | .ok a => if l.suffix = "" then .ok a else .error ⟨.suffixed l.suffix, some l.span⟩

end StringLiteral

end KeyedRecord.Source
