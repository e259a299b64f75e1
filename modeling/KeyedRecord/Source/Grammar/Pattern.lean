import KeyedRecord.Source.Grammar.Type
import KeyedRecord.Source.Lexer

/-!
# Patterns

A pattern takes a value apart: in a binding, in the condition of a branch, in an arm of a choice, in
the argument of a closure.  Alternatives with vertical lines between them stand anywhere but in a
binding and right behind a sign or a word; there they need parentheses.

These are `Pat::parse_single` and `Pat::parse_multi`.
-/

set_option autoImplicit false

namespace KeyedRecord.Source

namespace Grammar

/-! ## Members -/

/-- The text of a literal is that of a whole number without a suffix. -/
def isIndex (text : String) : Bool :=
  match (Lexer.wholeDigits text.toList) with
  | some (_, []) => true
  | _ => false

/-- A field: a name or a position. -/
def member : Reader Phrase := fun ts =>
  match ts with
  | ⟨.ident name, span⟩ :: r =>
    if Front.reserved.contains name then .error ⟨.keyword name, some span⟩
    else .ok (.word name, r)
  | ⟨.literal text, span⟩ :: r =>
    if isIndex text then .ok (.ofToken (.literal text), r)
    else .error ⟨.wanted false [.integerOrIdentifier], some span⟩
  | _ => .error ⟨.wanted (Front.ends ts) [.integerOrIdentifier], Front.span? ts⟩

/-! ## Ranges -/

/-- A range has no end here. -/
def endsRange (ts : List Placed) : Bool :=
  Front.ends ts || Front.op "|" ts || Front.op "=" ts || (Front.op ":" ts && !Front.op "::" ts)
    || Front.op "," ts || Front.op ";" ts || Front.word "if" ts

/-- The end of a range: a literal, a path or a constant block. -/
def rangeEnd? (g : Nesting) : Reader (Option Phrase) := do
  if ← Reader.front endsRange then return none
  else if ← Reader.front Front.literal then return some (← literalPhrase)
  else if ← Reader.front startsPath then return some (← qualifiedPath g true).phrase
  else
    let const ← Reader.word "const"
    return some (const ++ (← g.block))

/-- The dots of a range and its end.  Only two dots may stand without an end. -/
def rangeRest (g : Nesting) : Reader Phrase := do
  let closed ← Reader.front fun ts => Front.op "..=" ts || Front.op "..." ts
  let dots ←
    if ← Reader.front (Front.op "..=") then Reader.op "..="
    else if closed then Reader.op "..."
    else Reader.op ".."
  match ← rangeEnd? g with
  | some stop => return dots ++ stop
  | none => if closed then Reader.breaks .openRange else return dots

/-! ## Patterns -/

/-- A pattern that begins with a path starts here.  A name alone binds; it is a path only if
something follows that no binding has. -/
def startsPathPattern (ts : List Placed) : Bool :=
  let r := ts.drop 1
  (Front.identifier ts && (Front.op "::" r || Front.op "!" r || Front.op ".." r
      || Front.opening .brace r || Front.opening .paren r))
    || (Front.word "self" ts && Front.op "::" r) || Front.word "Self" ts || Front.word "super" ts
    || Front.word "crate" ts || Front.op "::" ts || Front.op "<" ts

/-- Alternatives, with a vertical line between any two and possibly one before the first. -/
def alternativePatterns (single : Reader Phrase) : Reader Phrase := do
  let leading ← Reader.op? "|"
  let first ← single
  let more ← Reader.many do
    if ← Reader.front fun ts =>
        Front.op "|" ts && !Front.op "||" ts && !Front.op "|=" ts then
      let bar ← Reader.op "|"
      return some (bar ++ (← single))
    else return none
  return Phrase.ofOption leading ++ first ++ more

/-- One field of a structure's pattern: dots for all that are left, a field with a pattern, or a
binding of the field's own name. -/
def fieldPattern (g : Nesting) (nested : Reader Phrase) : Reader Phrase := do
  let attrs ← g.attributes
  match ← Reader.op? ".." with
  | some dots =>
    if ← Reader.front Front.ends then return attrs ++ dots
    else Reader.failWith fun _ => .stray (some .brace)
  | none =>
    let boxed ← word? "box"
    let byRef ← word? "ref"
    let mutability ← word? "mut"
    let modifiers := boxed ++ byRef ++ mutability
    if modifiers.printed.isEmpty then
      let positional ← Reader.front Front.literal
      let name ← member
      if positional || (← Reader.front (Front.op ":")) then
        let colon ← Reader.op ":"
        return attrs ++ name ++ colon ++ (← nested)
      else return attrs ++ name
    else return attrs ++ modifiers ++ .word (← Reader.identifier)

/-- What may follow the path of a pattern. -/
def pathPattern (g : Nesting) (nested : Reader Phrase) : Reader Phrase := do
  let p ← qualifiedPath g true
  let called ← Reader.front fun ts => Front.op "!" ts && !Front.op "!=" ts
  if !p.qualified && p.allBare && called then
    let bang ← Reader.op "!"
    return p.phrase ++ bang ++ (← Reader.unreadGroup)
  else if ← Reader.front (Front.opening .brace) then
    let fields ← Reader.inside .brace (Reader.listUntil Front.ends "," (fieldPattern g nested))
    return p.phrase ++ .bracketed .brace (.separated "," fields)
  else if ← Reader.front (Front.opening .paren) then
    let items ← Reader.inside .paren (Reader.listUntil Front.ends "," nested)
    return p.phrase ++ .bracketed .paren (.separated "," items)
  else if ← Reader.front (Front.op "..") then return p.phrase ++ (← rangeRest g)
  else return p.phrase

/-- What a pattern can start with. -/
def patternStarts : List Wanted :=
  [.identifier, .operator "::", .operator "<", .word "_", .literal, .word "const", .word "ref",
    .word "mut", .operator "&", .parentheses, .squareBrackets, .operator ".."]

/-- A pattern without alternatives, as deep as `fuel`. -/
def patternFuel (g : Nesting) : Nat → Reader Phrase
  | 0 => Reader.failWith fun _ => .tooDeep
  | fuel + 1 => do
    let nested := alternativePatterns (patternFuel g fuel)
    if ← Reader.front startsPathPattern then pathPattern g nested
    else if ← Reader.front (Front.word "_") then Reader.word "_"
    else if ← Reader.front (Front.word "box") then
      let boxed ← Reader.word "box"
      return boxed ++ (← patternFuel g fuel)
    else if ← Reader.front fun ts => Front.literal ts || Front.word "const" ts then
      let first ← rangeEnd? g
      let rest ← if ← Reader.front (Front.op "..") then rangeRest g else pure .empty
      return Phrase.ofOption first ++ rest
    else if ← Reader.front fun ts =>
        Front.word "ref" ts || Front.word "mut" ts || Front.word "self" ts
          || Front.identifier ts then
      let byRef ← word? "ref"
      let mutability ← word? "mut"
      let name ← if ← Reader.front (Front.word "self") then Reader.anyWord else Reader.identifier
      match ← Reader.op? "@" with
      | some sign => return byRef ++ mutability ++ .word name ++ sign ++ (← patternFuel g fuel)
      | none => return byRef ++ mutability ++ .word name
    else if ← Reader.front (Front.op "&") then
      let amp ← Reader.op "&"
      let mutability ← word? "mut"
      return amp ++ mutability ++ (← patternFuel g fuel)
    else if ← Reader.front (Front.opening .paren) then
      let items ← Reader.inside .paren (Reader.listUntil Front.ends "," nested)
      return .bracketed .paren (.separated "," items)
    else if ← Reader.front (Front.opening .bracket) then
      let items ← Reader.inside .bracket (Reader.listUntil Front.ends "," nested)
      return .bracketed .bracket (.separated "," items)
    else if ← Reader.front fun ts => Front.op ".." ts && !Front.op "..." ts then rangeRest g
    else Reader.missing patternStarts

/-- A pattern without alternatives.  Each level takes a token. -/
def pattern (g : Nesting) : Reader Phrase := fun ts => patternFuel g (ts.length + 1) ts

/-- A pattern that may have alternatives. -/
def patterns (g : Nesting) : Reader Phrase := alternativePatterns (pattern g)

end Grammar

end KeyedRecord.Source
