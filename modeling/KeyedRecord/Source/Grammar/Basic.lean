import KeyedRecord.Source.Attribute

/-!
# The grammar's nesting

Types, expressions and blocks nest in one another.  The rules for one level are ordinary functions
of a `Nesting`, the readers for what stands one level deeper, so that no rule is recursive; the
module that ties the knot counts levels.
-/

set_option autoImplicit false

namespace KeyedRecord.Source

/-- What a reader of types may still ask about a type that was read. -/
inductive TypeForm where
  /-- One segment, possibly with arguments. -/
  | name
  /-- Any other path that does not start from a type. -/
  | path
  /-- A single trait without `dyn`, which only a binder before it shows to be one. -/
  | bound
  | other
  deriving DecidableEq, Repr

/-- A type that was read. -/
structure TypePhrase where
  phrase : Phrase
  form : TypeForm
  deriving DecidableEq, Repr

/-- What kind of bound was read. -/
inductive BoundKind where
  | trait
  | lifetime
  | capture
  deriving DecidableEq, Repr

/-- What may stand in a list of bounds besides lifetimes and plain traits. -/
structure BoundRules where
  capture : Bool
  const : Bool
  deriving DecidableEq, Repr

/-- Readers of what stands one level deeper. -/
structure Nesting where
  /-- A type; `true` where a sum of bounds may stand without brackets. -/
  type : Bool → Reader TypePhrase
  /-- An expression; `true` where a braced structure may stand without parentheses. -/
  expr : Bool → Reader Phrase
  /-- An expression at the start of a statement or an arm, and whether it may end without a sign. -/
  statement : Reader (Phrase × Bool)
  /-- Statements between braces. -/
  block : Reader Phrase
  /-- One bound. -/
  bound : BoundRules → Reader (BoundKind × Phrase)

namespace Nesting

/-- A type where a sum of bounds is allowed. -/
def anyType (g : Nesting) : Reader Phrase := do return (← g.type true).phrase

/-- A type that ends before a plus sign. -/
def typeWithoutPlus (g : Nesting) : Reader Phrase := do return (← g.type false).phrase

/-- The attributes that stand here, as source. -/
def attributes (g : Nesting) : Reader Phrase := do
  return .join ((← Attribute.readAll (g.expr true)).map Attribute.phrase)

end Nesting

/-- The phrase that a reader may or may not find. -/
def Phrase.ofOption (p : Option Phrase) : Phrase := p.getD .empty

end KeyedRecord.Source
