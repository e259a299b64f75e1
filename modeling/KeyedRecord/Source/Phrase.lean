import KeyedRecord.Source.Print

/-!
# Phrases

A phrase is a stretch of source whose grammar has been checked.  Nothing in this library evaluates a
type or an expression: it is read, compared, and put back.  So a phrase keeps its tokens and no
tree, in two orders.  In `written` they stand in the order of the source; two phrases are the same
syntax exactly if these lists are equal.  In `printed` they stand in the canonical order, where
lifetimes come before the other generic arguments.

Both lists have canonical spacing: only the characters of one operator are joint.  Tokens that the
grammar does not look into (the inside of a macro call) keep the spacing of the source.

Equality of `written` is the `PartialEq` of syntax trees, and `printed` is their `to_token_stream`.
-/

set_option autoImplicit false

namespace KeyedRecord.Source

/-- A stretch of checked source, in source order and in canonical order. -/
structure Phrase where
  written : List Token
  printed : List Token
  deriving DecidableEq, Repr

namespace Phrase

/-- The phrase of no tokens. -/
def empty : Phrase := ⟨[], []⟩

/-- One phrase after another, in both orders. -/
def append (p q : Phrase) : Phrase := ⟨p.written ++ q.written, p.printed ++ q.printed⟩

instance : Append Phrase := ⟨append⟩

/-- Tokens that print in the order in which they stand. -/
def ofTokens (ts : List Token) : Phrase := ⟨ts, ts⟩

/-- The phrase of one token. -/
def ofToken (t : Token) : Phrase := ofTokens [t]

/-- The parts of a phrase one after the other. -/
def join (ps : List Phrase) : Phrase := ps.foldr append empty

/-- The canonical text of a phrase. -/
def text (p : Phrase) : String := canonicalText p.printed

end Phrase

/-- The tokens of an operator: all its characters but the last are joint. -/
def operatorTokens : List Char → List Token
  | [] => []
  | [c] => [.punct c false]
  | c :: r => .punct c true :: operatorTokens r

namespace Phrase

/-- The phrase of an operator. -/
def operator (s : String) : Phrase := ofTokens (operatorTokens s.toList)

/-- A word that the grammar gives a meaning. -/
def word (s : String) : Phrase := ofToken (.ident s)

/-- A literal; the sign of a negative number is a token of its own. -/
def literal (t : Token) : Phrase :=
  match t with
  | .literal text =>
    match text.toList with
    | '-' :: r => ofTokens [.punct '-' false, .literal (String.ofList r)]
    | _ => ofToken t
  | _ => ofToken t

/-- A phrase in brackets. -/
def bracketed (d : Delimiter) (p : Phrase) : Phrase :=
  ofToken (.opening d) ++ p ++ ofToken (.closing d)

/-- A list with a separator behind each item that has one. -/
def separated (sep : String) (items : List (Phrase × Bool)) : Phrase :=
  join (items.map fun (p, more) => if more then p ++ operator sep else p)

end Phrase

/--
Items of a list that prints its lifetimes first: is it a lifetime, the item, does a comma follow.
-/
abbrev RankedItem := Bool × Phrase × Bool

/-- Sort a list of items into canonical order.  The lifetimes keep their commas; where the last of
them has none, one is put before the other items. -/
def lifetimesFirst (items : List RankedItem) : Phrase :=
  let plain (is : List RankedItem) : Phrase := Phrase.separated "," (is.map (·.2))
  let lifetimes := items.filter (·.1)
  let others := items.filter (!·.1)
  let gap : Phrase :=
    match lifetimes.getLast? with
    | some (_, _, false) => if others.isEmpty then .empty else .operator ","
    | _ => .empty
  ⟨(plain items).written, (plain lifetimes ++ gap ++ plain others).printed⟩

end KeyedRecord.Source
