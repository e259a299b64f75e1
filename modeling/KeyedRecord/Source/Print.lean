import KeyedRecord.Source.Token

/-!
# The canonical text of tokens

Tokens print with one space between neighbours, except that nothing follows a joint punctuation
mark, and that parentheses and square brackets hug what they hold.  Braces keep their inner spaces,
so an empty pair prints as two characters with a space between.

This is `to_string` of a `TokenStream`.
-/

set_option autoImplicit false

namespace KeyedRecord.Source

/-- The text of one token. -/
def Token.text : Token → String
  | ident name => name
  | lifetime name => name
  | punct c _ => String.singleton c
  | literal text => text
  | opening d => d.openText
  | closing d => d.closeText

/-- Nothing may follow the token directly. -/
def Token.hugsNext : Token → Bool
  | punct _ joint => joint
  | opening .paren | opening .bracket => true
  | _ => false

/-- Nothing may stand directly before the token. -/
def Token.hugsPrevious : Token → Bool
  | closing .paren | closing .bracket => true
  | _ => false

/-- What stands between two neighbours. -/
def separator (a b : Token) : String :=
  if a.hugsNext || b.hugsPrevious then "" else " "

/-- The canonical text of a list of tokens. -/
def canonicalText : List Token → String
  | [] => ""
  | [t] => t.text
  | a :: b :: r => a.text ++ separator a b ++ canonicalText (b :: r)

end KeyedRecord.Source
