import KeyedRecord.Source.Reader

/-!
# Attributes

An outer attribute is a path and what follows it: nothing, an equals sign with a value, or a pair of
brackets whose inside is left unread.  Whoever knows the path reads the inside.

These are `Attribute` and `Meta`; unread brackets are those that `parse_nested_meta` reads.
-/

set_option autoImplicit false

namespace KeyedRecord.Source

/-- A path of plain segments. -/
structure PlainPath where
  leading : Bool
  segments : List Placed
  deriving DecidableEq, Repr

namespace PlainPath

/-- The path is the one identifier `w`. -/
def isIdent (p : PlainPath) (w : String) : Bool :=
  match p.leading, p.segments with
  | false, [s] => s.token == .ident w
  | _, _ => false

/-- The path as source. -/
def phrase (p : PlainPath) : Phrase :=
  (if p.leading then .operator "::" else .empty) ++
    Phrase.ofTokens
      ((operatorTokens "::".toList).intercalate (p.segments.map fun s => [s.token]))

/-- The path as it reads in a message, without spaces. -/
def text (p : PlainPath) : String :=
  (if p.leading then "::" else "") ++ "::".intercalate (p.segments.map fun s => s.token.text)

/-- A word that may stand in a plain path. -/
def startsSegment (ts : List Placed) : Bool :=
  Front.identifier ts || Front.word "super" ts || Front.word "self" ts || Front.word "Self" ts
    || Front.word "crate" ts

/-- Read a plain path. -/
def read : Reader PlainPath := do
  let leading := (← Reader.op? "::").isSome
  let segments ← Reader.chain (fun ts => !startsSegment ts) "::" Reader.next
  match segments.getLast? with
  | none =>
    let _ ← Reader.identifier
    return ⟨leading, []⟩
  | some (_, true) => Reader.missing [.segment]
  | some (_, false) => return ⟨leading, segments.map (·.1)⟩

end PlainPath

/-- What follows the path of an attribute. -/
inductive AttributeBody where
  | bare
  /-- A pair of brackets; `close` is its closing token, where a reader of the inside ends. -/
  | list (d : Delimiter) (inner : List Placed) (close : Placed)
  /-- A value behind the equals sign that stands at `eq`. -/
  | value (eq : Span) (value : Phrase)
  deriving DecidableEq, Repr

/-- An outer attribute. -/
structure Attribute where
  path : PlainPath
  body : AttributeBody
  deriving DecidableEq, Repr

namespace Attribute

/-- The attribute as source. -/
def phrase (a : Attribute) : Phrase :=
  let body : Phrase :=
    match a.body with
    | .bare => .empty
    | .list d inner _ => .bracketed d (.ofTokens (tokensOf inner))
    | .value _ v => .operator "=" ++ v
  .operator "#" ++ .bracketed .bracket (a.path.phrase ++ body)

/-- The brackets that follow the path of an attribute, unread. -/
def readList : Reader AttributeBody := do
  let d ← Reader.anyDelimiter
  let _ ← Reader.opening d
  let inner ← Reader.unread
  let close ← Reader.closing d
  return .list d inner ⟨.closing d, close⟩

/-- The value of an attribute: a literal that ends the attribute, or else an expression. -/
def readValue (expr : Reader Phrase) : Reader Phrase := fun ts =>
  match Reader.literal ts with
  | .ok (lit, r) =>
    if Front.ends r then .ok (.literal lit.token, r) else expr ts
  | .error _ =>
    if Front.op "#" ts && Front.opening .bracket (ts.drop 1) then
      (Reader.breaks .attributeInAttribute : Reader Phrase) ts
    else expr ts

/-- What stands inside the square brackets of an attribute. -/
def readMeta (expr : Reader Phrase) : Reader Attribute := do
  let path ←
    if ← Reader.front (Front.word "unsafe") then
      let w ← Reader.next
      pure (PlainPath.mk false [w])
    else PlainPath.read
  if ← Reader.front fun ts =>
      Front.opening .paren ts || Front.opening .bracket ts || Front.opening .brace ts then
    return ⟨path, ← readList⟩
  else if ← Reader.front (Front.op "=") then
    let eq ← Reader.next
    return ⟨path, .value eq.span (← readValue expr)⟩
  else return ⟨path, .bare⟩

/-- Read one outer attribute. -/
def read (expr : Reader Phrase) : Reader Attribute := do
  let _ ← Reader.op "#"
  Reader.inside .bracket (readMeta expr)

/-- Read the outer attributes that stand here. -/
def readFuel (expr : Reader Phrase) : Nat → Reader (List Attribute)
  | 0 => Reader.failWith fun _ => .tooDeep
  | fuel + 1 => do
    if ← Reader.front (Front.op "#") then
      let a ← read expr
      let as ← readFuel expr fuel
      return a :: as
    else return []

/-- Read the outer attributes that stand here. -/
def readAll (expr : Reader Phrase) : Reader (List Attribute) := fun ts =>
  readFuel expr (ts.length + 1) ts

end Attribute

end KeyedRecord.Source
