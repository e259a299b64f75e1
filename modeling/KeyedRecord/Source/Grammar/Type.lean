import KeyedRecord.Source.Grammar.Path

/-!
# Types

The rule for one level of a type: paths, references, pointers, tuples, arrays, slices, functions,
macro calls, and sums of bounds with and without a leading word.  A sum without brackets is read
only where the reader of the type allows a plus sign; behind `&` and `*` it does not.

This is `Type::parse`.  That the canonical text of a type is read as the same type is
`IsType.readText_eq` in `Proofs.Source.TypeTexts`.
-/

set_option autoImplicit false

namespace KeyedRecord.Source

namespace Grammar

/-! ## Sums of bounds -/

/-- At least one bound, and more behind plus signs where they are allowed. -/
def boundSum (g : Nesting) (rules : BoundRules) (allowPlus : Bool) :
    Reader (List ((BoundKind × Phrase) × Bool)) := do
  let first ← g.bound rules
  if !allowPlus then return [(first, false)]
  match ← Reader.op? "+" with
  | none => return [(first, false)]
  | some _ =>
    let more ← Reader.chain (fun ts => !startsBound rules.const ts) "+" (g.bound rules)
    return (first, true) :: more

/-- Some bound is a trait. -/
def namesTrait (bounds : List ((BoundKind × Phrase) × Bool)) : Bool :=
  bounds.any fun ((kind, _), _) => kind == .trait

/-- The bounds of an object type. -/
def objectBounds (g : Nesting) (allowPlus : Bool) :
    Reader (List ((BoundKind × Phrase) × Bool)) := do
  let bounds ← boundSum g ⟨false, false⟩ allowPlus
  if namesTrait bounds then return bounds else Reader.breaks .objectNeedsTrait

/-- Further bounds behind plus signs, each of which a bound must follow. -/
def plusBounds (g : Nesting) : Reader Phrase :=
  Reader.many do
    match ← Reader.op? "+" with
    | some plus =>
      let (_, p) ← g.bound ⟨false, false⟩
      return some (plus ++ p)
    | none => return none

/-! ## Functions -/

/-- The text of a literal is that of a string. -/
def isStringLiteral (text : String) : Bool :=
  match text.toList with
  | c :: _ => c == '"' || c == 'r'
  | [] => false

/-- A string literal, if one stands here. -/
def string? : Reader Phrase := fun ts =>
  match ts with
  | ⟨.literal text, _⟩ :: r =>
    if isStringLiteral text then .ok (.ofToken (.literal text), r) else .ok (.empty, ts)
  | _ => .ok (.empty, ts)

/-- A word, if it stands here. -/
def word? (w : String) : Reader Phrase := do
  if ← Reader.front (Front.word w) then Reader.word w else return .empty

/-- An identifier or an underscore stands here. -/
def startsArgumentName (ts : List Placed) : Bool := Front.identifier ts || Front.word "_" ts

/-- The dots of a function with any number of arguments stand here, possibly named. -/
def startsVariadic (ts : List Placed) : Bool :=
  Front.op "..." ts
    || (startsArgumentName ts && Front.op ":" (ts.drop 1) && Front.op "..." (ts.drop 2))

/-- A name and its colon, unless it starts a path. -/
def namedArgument (ts : List Placed) : Bool :=
  Front.op ":" (ts.drop 1) && !Front.op "::" (ts.drop 1)

/-- One argument of a function type. -/
def functionArgument (g : Nesting) (isFirst : Bool) : Reader Phrase := do
  let attrs ← g.attributes
  if ← Reader.front startsVariadic then
    let name ←
      if ← Reader.front startsArgumentName then
        let n ← Reader.anyWord
        pure (.word n ++ (← Reader.op ":"))
      else pure .empty
    let dots ← Reader.op "..."
    return attrs ++ name ++ dots
  let mutSelf ← Reader.front fun ts =>
    isFirst && Front.word "mut" ts && Front.word "self" (ts.drop 1)
  let mutable ← if mutSelf then Reader.word "mut" else pure .empty
  let name ←
    if ← Reader.front fun ts =>
        (startsArgumentName ts || (isFirst && Front.word "self" ts)) && namedArgument ts then
      let n ← Reader.anyWord
      pure (.word n ++ (← Reader.op ":"))
    else pure .empty
  if mutSelf && name.printed.isEmpty then
    return attrs ++ mutable ++ (← Reader.word "self")
  else if ← Reader.front fun ts =>
      isFirst && Front.word "mut" ts && Front.word "self" (ts.drop 1) then
    let m ← Reader.word "mut"
    return attrs ++ mutable ++ name ++ m ++ (← Reader.word "self")
  else return attrs ++ mutable ++ name ++ (← g.anyType)

/-- The arguments of a function type; only the first may be `self`. -/
def functionArguments (g : Nesting) : Reader Phrase := do
  if ← Reader.front Front.ends then return .empty
  let first ← functionArgument g true
  match ← Reader.op? "," with
  | none => return first
  | some comma =>
    let more ← Reader.listUntil Front.ends "," (functionArgument g false)
    return first ++ comma ++ .separated "," more

/-- A function type. -/
def functionType (g : Nesting) : Reader Phrase := do
  let unsafety ← word? "unsafe"
  let abi ←
    if ← Reader.front (Front.word "extern") then
      let w ← Reader.word "extern"
      pure (w ++ (← string?))
    else pure .empty
  let fn ← Reader.word "fn"
  let args ← Reader.inside .paren (functionArguments g)
  return unsafety ++ abi ++ fn ++ .bracketed .paren args ++ (← returnType g)

/-! ## The forms in brackets -/

/-- What stands in parentheses, and whether it may be the first bound of a sum. -/
def parenthesizedType (g : Nesting) : Reader (Phrase × Bool) := do
  if ← Reader.front Front.ends then return (.empty, false)
  if ← Reader.front Front.lifetime then
    let bounds ← objectBounds g true
    return (boundsPhrase bounds, false)
  let first ← g.type true
  match ← Reader.op? "," with
  | some comma =>
    let more ← Reader.listUntil Front.ends "," g.anyType
    return (first.phrase ++ comma ++ .separated "," more, false)
  | none => return (first.phrase, first.form != .other)

/-- A type that starts with a parenthesis. -/
def parenType (g : Nesting) (allowPlus : Bool) : Reader TypePhrase := do
  if ← Reader.front fun ts => Front.op "?" (ts.drop 1) then
    let p ← Reader.inside .paren (traitBound g false)
    let more ← plusBounds g
    return ⟨.bracketed .paren p ++ more, .other⟩
  let (p, isBound) ← Reader.inside .paren (parenthesizedType g)
  let grouped : Phrase := .bracketed .paren p
  if isBound && allowPlus && (← Reader.front (Front.op "+")) then
    return ⟨grouped ++ (← plusBounds g), .other⟩
  else return ⟨grouped, .other⟩

/-- An array or a slice. -/
def bracketType (g : Nesting) : Reader TypePhrase := do
  let p ← Reader.inside .bracket do
    let element ← g.anyType
    match ← Reader.op? ";" with
    | some semi => return element ++ semi ++ (← g.expr true)
    | none => return element
  return ⟨.bracketed .bracket p, .other⟩

/-! ## All types -/

/-- The words and signs with which a type may start, in the order in which a message names them. -/
def typeStarts : List Wanted :=
  [.word "for", .parentheses, .word "fn", .word "unsafe", .word "extern", .identifier,
    .operator "::", .operator "<", .word "dyn", .squareBrackets, .operator "*", .operator "&",
    .operator "!", .word "impl", .word "_", .lifetime]

/-- What may follow a binder. -/
def binderFollowers : List Wanted :=
  [.identifier, .word "fn", .word "unsafe", .word "extern", .word "super", .word "self",
    .word "Self", .word "crate"]

/-- A function type starts here. -/
def startsFunction (ts : List Placed) : Bool :=
  Front.word "fn" ts || Front.word "unsafe" ts || Front.word "extern" ts

/-- A path starts here. -/
def startsPath (ts : List Placed) : Bool :=
  Front.identifier ts || Front.word "super" ts || Front.word "self" ts || Front.word "Self" ts
    || Front.word "crate" ts || Front.op "::" ts || Front.op "<" ts

/-- What may follow a binder starts here. -/
def followsBinder (ts : List Placed) : Bool :=
  startsFunction ts || Front.identifier ts || Front.word "super" ts || Front.word "self" ts
    || Front.word "Self" ts || Front.word "crate" ts

/-- A path as a type, a macro call, or the first trait of a sum without a leading word. -/
def pathType (g : Nesting) (allowPlus : Bool) (binder : Option Phrase) : Reader TypePhrase := do
  let p ← qualifiedPath g false
  if p.qualified then return ⟨Phrase.ofOption binder ++ p.phrase, .other⟩
  if p.allBare && (← Reader.front fun ts => Front.op "!" ts && !Front.op "!=" ts) then
    let bang ← Reader.op "!"
    return ⟨Phrase.ofOption binder ++ p.phrase ++ bang ++ (← Reader.unreadGroup), .other⟩
  if binder.isSome || (allowPlus && (← Reader.front (Front.op "+"))) then
    let first := Phrase.ofOption binder ++ p.phrase
    if allowPlus then
      match ← Reader.op? "+" with
      | none => return ⟨first, .bound⟩
      | some plus =>
        let more ← Reader.chain (fun ts => !startsBound false ts) "+" (g.bound ⟨false, false⟩)
        return ⟨first ++ plus ++ boundsPhrase more, .other⟩
    else return ⟨first, .bound⟩
  return ⟨p.phrase, p.form⟩

/-- A pointer. -/
def pointerType (g : Nesting) : Reader TypePhrase := do
  let star ← Reader.op "*"
  let kind ←
    if ← Reader.front (Front.word "const") then Reader.word "const"
    else if ← Reader.front (Front.word "mut") then Reader.word "mut"
    else Reader.missing [.word "const", .word "mut"]
  return ⟨star ++ kind ++ (← g.typeWithoutPlus), .other⟩

/-- A reference. -/
def referenceType (g : Nesting) : Reader TypePhrase := do
  let amp ← Reader.op "&"
  let life ← if ← Reader.front Front.lifetime then Reader.lifetime else pure .empty
  let mutability ← word? "mut"
  return ⟨amp ++ life ++ mutability ++ (← g.typeWithoutPlus), .other⟩

/-- A sum of bounds behind `dyn`. -/
def objectType (g : Nesting) (allowPlus : Bool) : Reader TypePhrase := do
  let w ← Reader.word "dyn"
  let star ← Reader.op? "*"
  let bounds ← objectBounds g allowPlus
  return ⟨w ++ Phrase.ofOption star ++ boundsPhrase bounds, .other⟩

/-- A sum of bounds behind `impl`. -/
def hiddenType (g : Nesting) (allowPlus : Bool) : Reader TypePhrase := do
  let w ← Reader.word "impl"
  let bounds ← boundSum g ⟨true, true⟩ allowPlus
  if namesTrait bounds then return ⟨w ++ boundsPhrase bounds, .other⟩
  else Reader.breaks .implNeedsTrait

/-- One level of a type. -/
def type (g : Nesting) (allowPlus : Bool) : Reader TypePhrase := do
  let binder ← binder? g
  if binder.isSome && !(← Reader.front followsBinder) then
    Reader.missing binderFollowers
  else if ← Reader.front (Front.opening .paren) then parenType g allowPlus
  else if ← Reader.front startsFunction then
    return ⟨Phrase.ofOption binder ++ (← functionType g), .other⟩
  else if ← Reader.front startsPath then pathType g allowPlus binder
  else if ← Reader.front (Front.word "dyn") then objectType g allowPlus
  else if ← Reader.front (Front.opening .bracket) then bracketType g
  else if ← Reader.front (Front.op "*") then pointerType g
  else if ← Reader.front (Front.op "&") then referenceType g
  else if ← Reader.front (Front.op "!") then return ⟨← Reader.op "!", .other⟩
  else if ← Reader.front (Front.word "impl") then hiddenType g allowPlus
  else if ← Reader.front (Front.word "_") then return ⟨← Reader.word "_", .other⟩
  else if ← Reader.front Front.lifetime then
    return ⟨boundsPhrase (← objectBounds g true), .other⟩
  else Reader.missing typeStarts

end Grammar

end KeyedRecord.Source
