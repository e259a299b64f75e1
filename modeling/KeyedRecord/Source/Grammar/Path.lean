import KeyedRecord.Source.Grammar.Basic

/-!
# Paths, bounds and generic arguments

The rules for paths with arguments, and for the bounds that such paths make up.  Two styles of path
exist: in a type, arguments follow a name directly; in an expression, where the same sign compares,
they need the double colon.

These are `Path` and `TypeParamBound`.
-/

set_option autoImplicit false

namespace KeyedRecord.Source

namespace Grammar

/-- What a reader may still ask about a path that was read. -/
structure PathPhrase where
  phrase : Phrase
  /-- Number of segments. -/
  count : Nat
  leading : Bool
  /-- The path starts from a type between angle brackets. -/
  qualified : Bool
  /-- The last segment has no arguments yet. -/
  lastIsBare : Bool
  /-- No segment has arguments. -/
  allBare : Bool
  deriving DecidableEq, Repr

namespace PathPhrase

/-- Put one more segment behind a path. -/
def push (p : PathPhrase) (segment : Phrase) (bare : Bool) : PathPhrase :=
  { p with
    phrase := p.phrase ++ segment
    count := p.count + 1
    lastIsBare := bare
    allBare := p.allBare && bare }

/-- What is left of the path for a reader of types. -/
def form (p : PathPhrase) : TypeForm :=
  if p.qualified then .other
  else if p.count == 1 && !p.leading then .name
  else .path

end PathPhrase

/-! ## Arguments -/

/-- `for<'a, 'b>`, if it stands here. -/
def binder? (g : Nesting) : Reader (Option Phrase) := do
  if ← Reader.front (Front.word "for") then
    let f ← Reader.word "for"
    let lt ← Reader.op "<"
    let items ← Reader.listUntil (Front.op ">") "," do
      let attrs ← g.attributes
      return attrs ++ (← Reader.lifetime)
    let gt ← Reader.op ">"
    return some (f ++ lt ++ Phrase.separated "," items ++ gt)
  else return none

/-- `-> T`, if it stands here. -/
def returnType (g : Nesting) : Reader Phrase := do
  match ← Reader.op? "->" with
  | some arrow => return arrow ++ (← g.typeWithoutPlus)
  | none => return .empty

/-- `(A, B) -> C`. -/
def parenthesizedArguments (g : Nesting) : Reader Phrase := do
  let items ← Reader.inside .paren (Reader.listUntil Front.ends "," g.anyType)
  return .bracketed .paren (.separated "," items) ++ (← returnType g)

/-- A literal as a phrase. -/
def literalPhrase : Reader Phrase := do return .literal (← Reader.literal).token

/-- A literal or a block, which needs no name to be a constant. -/
def constantArgument (g : Nesting) : Reader Phrase := do
  if ← Reader.front Front.literal then literalPhrase
  else if ← Reader.front Front.identifier then
    return .word (← Reader.identifier)
  else if ← Reader.front (Front.opening .brace) then g.block
  else Reader.failWith (.wanted · [])

/-- A bound starts here, where one follows a plus sign. -/
def startsBound (allowConst : Bool) (ts : List Placed) : Bool :=
  Front.anyWord ts || Front.op "::" ts || Front.op "?" ts || Front.lifetime ts
    || Front.opening .paren ts || (allowConst && Front.opening .bracket ts)

/-! ## Segments -/

/-- A third token along, behind the two of a double colon. -/
def behindColons (p : List Placed → Bool) (ts : List Placed) : Bool :=
  Front.op "::" ts && p (ts.drop 2)

/-- Arguments between angle brackets start here. -/
def startsArguments (inExpression : Bool) (ts : List Placed) : Bool :=
  (!inExpression && Front.op "<" ts && !Front.op "<=" ts && !Front.op "<<=" ts)
    || behindColons (Front.op "<") ts

/-- Arguments between parentheses start here. -/
def startsParenthesized (ts : List Placed) : Bool :=
  Front.opening .paren ts || behindColons (Front.opening .paren) ts

/-- The words that are segments although they are no identifiers, and take no arguments. -/
def startsKeywordSegment (ts : List Placed) : Bool :=
  Front.word "super" ts || Front.word "self" ts || Front.word "crate" ts || Front.word "try" ts

/-- Bounds with plus signs between them. -/
def boundsPhrase (bounds : List ((BoundKind × Phrase) × Bool)) : Phrase :=
  .separated "+" (bounds.map fun ((_, p), plus) => (p, plus))

/-- One item of a list of generic arguments: is it a lifetime, and its phrase. -/
def genericArgument (g : Nesting) : Reader (Bool × Phrase) := do
  if ← Reader.front fun ts => Front.lifetime ts && !Front.op "+" (ts.drop 1) then
    return (true, ← Reader.lifetime)
  else if ← Reader.front Front.literal then
    return (false, ← literalPhrase)
  else if ← Reader.front (Front.opening .brace) then
    return (false, ← g.block)
  else
    let t ← g.type true
    match t.form with
    | .name =>
      match ← Reader.op? "=" with
      | some eq =>
        if ← Reader.front Front.literal then
          return (false, t.phrase ++ eq ++ (← literalPhrase))
        else if ← Reader.front (Front.opening .brace) then
          return (false, t.phrase ++ eq ++ (← g.block))
        else return (false, t.phrase ++ eq ++ (← g.anyType))
      | none =>
        match ← Reader.op? ":" with
        | some colon =>
          let stop (ts : List Placed) : Bool := Front.op "," ts || Front.op ">" ts
          let bounds ← Reader.chain stop "+" (g.bound ⟨false, true⟩)
          return (false, t.phrase ++ colon ++ boundsPhrase bounds)
        | none => return (false, t.phrase)
    | _ => return (false, t.phrase)

/-- `<A, B>`, with the double colon before it if it stands here. -/
def angleArguments (g : Nesting) : Reader Phrase := do
  let colons ← Reader.op? "::"
  let lt ← Reader.op "<"
  let items ← Reader.listUntil (Front.op ">") "," (genericArgument g)
  let gt ← Reader.op ">"
  let sorted := lifetimesFirst (items.map fun ((isLifetime, p), comma) => (isLifetime, p, comma))
  return Phrase.ofOption colons ++ lt ++ sorted ++ gt

/-- One segment of a path, and whether it is bare. -/
def segment (g : Nesting) (inExpression : Bool) :
    Reader (Phrase × Bool) := do
  if ← Reader.front startsKeywordSegment then
    return (.word (← Reader.anyWord), true)
  let name ←
    if ← Reader.front (Front.word "Self") then Reader.anyWord else Reader.identifier
  if ← Reader.front (startsArguments inExpression) then
    return (.word name ++ (← angleArguments g), false)
  else return (.word name, true)

/-- Further segments, for as long as a double colon follows that no parenthesis follows. -/
def moreSegmentsFuel (g : Nesting) (inExpression : Bool) :
    Nat → PathPhrase → Reader PathPhrase
  | 0, _ => Reader.failWith fun _ => .tooDeep
  | fuel + 1, p => do
    if ← Reader.front fun ts => Front.op "::" ts && !Front.opening .paren (ts.drop 2) then
      let colons ← Reader.op "::"
      let (s, bare) ← segment g inExpression
      moreSegmentsFuel g inExpression fuel (p.push (colons ++ s) bare)
    else return p

/-- Further segments, for as long as a double colon follows that no parenthesis follows. -/
def moreSegments (g : Nesting) (inExpression : Bool) (p : PathPhrase) :
    Reader PathPhrase := fun ts =>
  moreSegmentsFuel g inExpression (ts.length + 1) p ts

/-- A path that starts from no type. -/
def path (g : Nesting) (inExpression : Bool) : Reader PathPhrase := do
  let leading ← Reader.op? "::"
  let (s, bare) ← segment g inExpression
  moreSegments g inExpression
    { phrase := Phrase.ofOption leading ++ s
      count := 1
      leading := leading.isSome
      qualified := false
      lastIsBare := bare
      allBare := bare }

/-- Segments behind a path, where also a parenthesis may follow each double colon. -/
def everySegmentFuel (g : Nesting) (inExpression : Bool) :
    Nat → PathPhrase → Reader PathPhrase
  | 0, _ => Reader.failWith fun _ => .tooDeep
  | fuel + 1, p => do
    let (s, bare) ← segment g inExpression
    let p := p.push s bare
    match ← Reader.op? "::" with
    | some colons =>
      everySegmentFuel g inExpression fuel { p with phrase := p.phrase ++ colons }
    | none => return p

/-- A path, possibly from a type: `<T as A>::B`. -/
def qualifiedPath (g : Nesting) (inExpression : Bool) :
    Reader PathPhrase := do
  if ← Reader.front (Front.op "<") then
    let lt ← Reader.op "<"
    let self ← g.anyType
    let as? ←
      if ← Reader.front (Front.word "as") then
        let w ← Reader.word "as"
        let p ← path g false
        pure (some (w ++ p.phrase))
      else pure none
    let gt ← Reader.op ">"
    let colons ← Reader.op "::"
    let start : PathPhrase :=
      { phrase := lt ++ self ++ Phrase.ofOption as? ++ gt ++ colons
        count := 0
        leading := false
        qualified := true
        lastIsBare := true
        allBare := true }
    fun ts => everySegmentFuel g inExpression (ts.length + 1) start ts
  else path g inExpression

/-! ## Bounds -/

/-- A trait, with its modifiers. -/
def traitBound (g : Nesting) (allowConst : Bool) : Reader Phrase := do
  let binder ← binder? g
  let const ←
    if ← Reader.front (Front.opening .bracket) then
      let w ← Reader.inside .bracket (Reader.word "const")
      if !allowConst then Reader.breaks .conditionalConst
      else pure (.bracketed .bracket w)
    else if ← Reader.front (Front.word "const") then
      let w ← Reader.word "const"
      if !allowConst then Reader.breaks .unconditionalConst else pure w
    else pure .empty
  let relaxed ← Reader.op? "?"
  let inner ← if binder.isNone && relaxed.isSome then binder? g else pure none
  let p ← path g false
  let args ←
    if p.lastIsBare then
      if ← Reader.front startsParenthesized then
        -- the double colon before parentheses is not kept
        let _ ← Reader.op? "::"
        parenthesizedArguments g
      else pure .empty
    else pure .empty
  if (binder.isSome || inner.isSome) && relaxed.isSome then Reader.breaks .relaxedBinder
  else return Phrase.ofOption binder ++ const ++ Phrase.ofOption relaxed ++ p.phrase ++ args

/-- The list of what a hidden type may name. -/
def preciseCapture : Reader Phrase := do
  let w ← Reader.word "use"
  let lt ← Reader.op "<"
  let items ← Reader.listUntil (Front.op ">") "," do
    if ← Reader.front Front.lifetime then Reader.lifetime
    else if ← Reader.front (Front.word "Self") then return .word (← Reader.anyWord)
    else return .word (← Reader.identifier)
  let gt ← Reader.op ">"
  return w ++ lt ++ Phrase.separated "," items ++ gt

/-- One bound. -/
def bound (g : Nesting) (rules : BoundRules) : Reader (BoundKind × Phrase) := do
  if ← Reader.front Front.lifetime then
    return (.lifetime, ← Reader.lifetime)
  else if ← Reader.front (Front.word "use") then
    let p ← preciseCapture
    if rules.capture then return (.capture, p) else Reader.breaks .preciseCapture
  else if ← Reader.front (Front.opening .paren) then
    let p ← Reader.inside .paren (traitBound g rules.const)
    return (.trait, .bracketed .paren p)
  else return (.trait, ← traitBound g rules.const)

end Grammar

end KeyedRecord.Source
