/-!
# Tokens of source text

Source text is a flat list of tokens.  A bracketed stretch is not a tree of its own: its opening and
closing tokens stand in the list, and the lexer promises that they pair up.  A reader that reaches a
closing token is at the end of its stretch, in the same way as a reader that reaches the end of the
list, so one set of readers serves both.

A token carries the stretch of text that it was read from.  Generated tokens carry none.

The list is a `TokenStream`, written out flat.
-/

set_option autoImplicit false

namespace KeyedRecord.Source

/-- The three kinds of brackets. -/
inductive Delimiter where
  | paren
  | bracket
  | brace
  deriving DecidableEq, Repr

namespace Delimiter

/-- The bracket that opens. -/
def openText : Delimiter → String
  | paren => "("
  | bracket => "["
  | brace => "\x7b"

/-- The bracket that closes. -/
def closeText : Delimiter → String
  | paren => ")"
  | bracket => "]"
  | brace => "\x7d"

end Delimiter

/--
One token.  Identifiers, lifetimes and literals keep their spelling, raw identifiers with their
`r#` and lifetimes with their quote.  A punctuation token is one character; it is `joint` when the
next character of the text is punctuation too, and only joint characters combine to an operator.
-/
inductive Token where
  | ident (name : String)
  | lifetime (name : String)
  | punct (c : Char) (joint : Bool)
  | literal (text : String)
  | opening (d : Delimiter)
  | closing (d : Delimiter)
  deriving DecidableEq, Repr

/-- A place in a text: lines count from one, columns from zero, in characters. -/
structure Position where
  line : Nat
  column : Nat
  deriving DecidableEq, Repr

namespace Position

/-- Where a text starts. -/
def start : Position := ⟨1, 0⟩

/-- The place behind one character. -/
def step (p : Position) (c : Char) : Position :=
  if c = '\n' then ⟨p.line + 1, 0⟩ else ⟨p.line, p.column + 1⟩

/-- The place behind a stretch of text. -/
def advance (p : Position) (cs : List Char) : Position := cs.foldl step p

end Position

/-- A stretch of text; the end is exclusive. -/
structure Span where
  start : Position
  stop : Position
  deriving DecidableEq, Repr

namespace Span

/-- From the start of one stretch to the end of a later one. -/
def through (first last : Span) : Span := ⟨first.start, last.stop⟩

end Span

/-- A token with the stretch of text it was read from. -/
structure Placed where
  token : Token
  span : Span
  deriving DecidableEq, Repr

/-- Forget where the tokens stood. -/
def tokensOf (ts : List Placed) : List Token := ts.map Placed.token

end KeyedRecord.Source
