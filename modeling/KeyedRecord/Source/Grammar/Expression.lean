import KeyedRecord.Source.Grammar.Control

/-!
# Constant expressions

Expressions stand where a type needs a number: the length of an array, a constant argument, the
value of a variant.  They are checked and copied, never evaluated, so precedence matters only where
the grammar refuses something: two comparisons in a row, and anything behind a range.

This is `Expr::parse`.
-/

set_option autoImplicit false

namespace KeyedRecord.Source

namespace Grammar

/-! ## Atoms -/

/-- An expression at the front, and whether it may stand as a statement without a semicolon. -/
abbrev ExprPhrase := Phrase × Bool

/-- Expressions between brackets. -/
def exprList (g : Nesting) (d : Delimiter) : Reader Phrase := do
  let items ← Reader.inside d (Reader.listUntil Front.ends "," (g.expr true))
  return .bracketed d (.separated "," items)

/-- An array of elements, or of one element many times. -/
def arrayExpr (g : Nesting) : Reader Phrase := do
  let p ← Reader.inside .bracket do
    if ← Reader.front Front.ends then return .empty
    let first ← g.expr true
    match ← Reader.op? ";" with
    | some semi => return first ++ semi ++ (← g.expr true)
    | none =>
      match ← Reader.op? "," with
      | some comma =>
        let more ← Reader.listUntil Front.ends "," (g.expr true)
        return first ++ comma ++ .separated "," more
      | none =>
        if ← Reader.front Front.ends then return first
        else Reader.missing [.operator ",", .operator ";"]
  return .bracketed .bracket p

/-- The fields of a structure between braces. -/
def structFields (g : Nesting) : Reader Phrase := do
  let field : Reader Phrase := do
    match ← Reader.op? ".." with
    | some dots => if ← Reader.front Front.ends then return dots else return dots ++ (← g.expr true)
    | none =>
      let attrs ← g.attributes
      let name ← member
      match ← Reader.op? ":" with
      | some colon => return attrs ++ name ++ colon ++ (← g.expr true)
      | none => return attrs ++ name
  let items ← Reader.inside .brace (Reader.listUntil Front.ends "," field)
  return .bracketed .brace (.separated "," items)

/-- A path, a macro call or a structure. -/
def pathExpr (g : Nesting) (allowStruct : Bool) : Reader ExprPhrase := do
  let p ← qualifiedPath g true
  let called ← Reader.front fun ts => Front.op "!" ts && !Front.op "!=" ts
  if !p.qualified && p.allBare && called then
    let bang ← Reader.op "!"
    let isBraced ← Reader.front (Front.opening .brace)
    return (p.phrase ++ bang ++ (← Reader.unreadGroup), isBraced)
  if allowStruct && (← Reader.front (Front.opening .brace)) then
    return (p.phrase ++ (← structFields g), false)
  return (p.phrase, false)

/-- An expression without signs before or behind it. -/
def atom (g : Nesting) (allowStruct : Bool) : Reader ExprPhrase := do
  let value (p : Reader Phrase) : Reader ExprPhrase := do return (← p, false)
  let block (p : Reader Phrase) : Reader ExprPhrase := do return (← p, true)
  if ← Reader.front Front.literal then value literalPhrase
  else if ← Reader.front startsAsyncBlock then value (asyncBlock g)
  else if ← Reader.front (startsWordBlock "try") then block (wordBlock g "try")
  else if ← Reader.front startsClosure then value (closure g allowStruct)
  else if ← Reader.front startsPath then pathExpr g allowStruct
  else if ← Reader.front (Front.opening .paren) then value (exprList g .paren)
  else if ← Reader.front (Front.word "break") then value (leavingLoop g allowStruct)
  else if ← Reader.front (Front.word "continue") then value continuing
  else if ← Reader.front (Front.word "return") then value (leaving g allowStruct "return")
  else if ← Reader.front (Front.word "yield") then value (leaving g allowStruct "yield")
  else if ← Reader.front (Front.opening .bracket) then value (arrayExpr g)
  else if ← Reader.front (Front.word "let") then value (patternCondition g allowStruct)
  else if ← Reader.front (Front.word "if") then block (branch g)
  else if ← Reader.front (Front.word "match") then block (choice g)
  else if ← Reader.front (Front.word "unsafe") then block (wordBlock g "unsafe")
  else if ← Reader.front (Front.word "const") then block (wordBlock g "const")
  else if ← Reader.front startsLabelled then block (loopOrBlock g)
  else if ← Reader.front Front.lifetime then block (labelled g)
  else if ← Reader.front (Front.word "_") then value (Reader.word "_")
  else Reader.missing [.expression]

/-! ## Signs behind an expression -/

/-- The positions in the text of a number behind a dot, such as `0.1`: a list of numbers between
dots, the last of which may be missing. -/
def positions (text : String) : Option Phrase :=
  let (whole, rest) := Lexer.run (fun c => c != '.') text.toList
  let number (cs : List Char) : Option Phrase :=
    if isIndex (String.ofList cs) then some (.ofToken (.literal (String.ofList cs))) else none
  match rest with
  | ['.'] => (number whole).map (· ++ Phrase.operator ".")
  | '.' :: part => do return (← number whole) ++ Phrase.operator "." ++ (← number part)
  | _ => none

/-- Arguments between angle brackets behind a method's name. -/
def turbofish (g : Nesting) : Reader Phrase := do
  if ← Reader.front (Front.op "::") then angleArguments g else return .empty

/-- A field by its name or its position, or a method. -/
def fieldOrMethod (g : Nesting) : Reader Phrase := do
  if ← Reader.front (Front.word "await") then Reader.word "await"
  else if ← Reader.front Front.anyWord then
    let name ← member
    return name ++ (← turbofish g)
  else member

/-- Take a number with a dot, if one stands here: its positions, and whether the last is missing. -/
def positions? : Reader (Option (Phrase × Bool)) := fun ts =>
  match ts with
  | ⟨.literal text, _⟩ :: r =>
    match positions text with
    | some p => .ok (some (p, text.endsWith "."), r)
    | none => .ok (none, ts)
  | _ => .ok (none, ts)

/-- What may follow a dot. -/
def afterDot (g : Nesting) : Reader Phrase := do
  match ← positions? with
  | some (p, true) => return p ++ (← fieldOrMethod g)
  | some (p, false) => return p
  | none => fieldOrMethod g

/-- One sign behind an expression: a call, a field, a method, an index or a question mark. -/
def trailer (g : Nesting) : Reader (Option Phrase) := do
  if ← Reader.front (Front.opening .paren) then return some (← exprList g .paren)
  else if ← Reader.front fun ts => Front.op "." ts && !Front.op ".." ts then
    let dot ← Reader.op "."
    return some (dot ++ (← afterDot g))
  else if ← Reader.front (Front.opening .bracket) then
    let p ← Reader.inside .bracket (g.expr true)
    return some (.bracketed .bracket p)
  else if ← Reader.front (Front.op "?") then return some (← Reader.op "?")
  else return none

/-! ## Signs before an expression -/

/-- One sign before an expression, or the words that belong to it. -/
def leader (g : Nesting) : Reader (Option Phrase) := do
  if ← Reader.front (Front.op "&") then
    let amp ← Reader.op "&"
    if ← Reader.front fun ts =>
        Front.word "raw" ts && (Front.word "mut" (ts.drop 1) || Front.word "const" (ts.drop 1)) then
      let raw ← Reader.word "raw"
      if ← Reader.front (Front.word "mut") then return some (amp ++ raw ++ (← Reader.word "mut"))
      else return some (amp ++ raw ++ (← Reader.word "const"))
    else return some (amp ++ (← word? "mut"))
  else if ← Reader.front (Front.op "*") then return some (← Reader.op "*")
  else if ← Reader.front (Front.op "!") then return some (← Reader.op "!")
  else if ← Reader.front (Front.op "-") then return some (← Reader.op "-")
  else if ← Reader.front (Front.op "#") then return some (← g.attributes)
  else return none

/-- An expression without an operator between two others. -/
def operand (g : Nesting) (allowStruct : Bool) : Reader ExprPhrase := do
  let before ← Reader.many (leader g)
  let (p, isStatement) ← atom g allowStruct
  let behind ← Reader.many (trailer g)
  return (before ++ p ++ behind,
    isStatement && before.printed.isEmpty && behind.printed.isEmpty)

/-! ## Operators between expressions -/

/-- How far an operator separates what stands on its sides. -/
inductive OperatorKind where
  | tight
  | comparison
  | logical
  | assignment
  deriving DecidableEq, Repr

/-- The operators, longer ones before their beginnings. -/
def operators : List (String × OperatorKind) :=
  [("<<=", .assignment), (">>=", .assignment), ("+=", .assignment), ("-=", .assignment),
    ("*=", .assignment), ("/=", .assignment), ("%=", .assignment), ("^=", .assignment),
    ("&=", .assignment), ("|=", .assignment), ("&&", .logical), ("||", .logical), ("<<", .tight),
    (">>", .tight), ("==", .comparison), ("<=", .comparison), ("!=", .comparison),
    (">=", .comparison), ("+", .tight), ("-", .tight), ("*", .tight), ("/", .tight), ("%", .tight),
    ("^", .tight), ("&", .tight), ("|", .tight), ("<", .comparison), (">", .comparison)]

/-- The operator that stands here. -/
def operator? (ts : List Placed) : Option (String × OperatorKind) :=
  match operators.find? fun (s, _) => Front.op s ts with
  | some o => some o
  | none => if Front.op "=" ts && !Front.op "=>" ts then some ("=", .assignment) else none

/-- The rest of an expression behind an operand.  `compared` says that a comparison stands before it
with only tighter operators between; behind a range only its end may follow. -/
def operatorsFuel (g : Nesting) (allowStruct : Bool) :
    Nat → (compared inRange : Bool) → Reader Phrase
  | 0, _, _ => Reader.failWith fun _ => .tooDeep
  | fuel + 1, compared, inRange => do
    match operator? (← get) with
    | some (s, kind) =>
      if kind == .comparison && compared then Reader.breaks .chainedComparison
      else if kind == .assignment && inRange then return .empty
      else
        let o ← Reader.op s
        let (p, _) ← operand g allowStruct
        let compared := match kind with
          | .tight => compared
          | .comparison => true
          | _ => false
        return o ++ p ++ (← operatorsFuel g allowStruct fuel compared inRange)
    | none =>
      if ← Reader.front (Front.word "as") then
        let w ← Reader.word "as"
        let t ← g.typeWithoutPlus
        return w ++ t ++ (← operatorsFuel g allowStruct fuel compared inRange)
      else if !inRange && (← Reader.front (Front.op "..")) then
        let closed ← Reader.front (Front.op "..=")
        let dots ← if closed then Reader.op "..=" else Reader.op ".."
        let isOpen ← Reader.front fun ts =>
          !startsValue ts || (!allowStruct && Front.opening .brace ts)
        if !closed && isOpen then return dots
        let (p, _) ← operand g allowStruct
        return dots ++ p ++ (← operatorsFuel g allowStruct fuel false true)
      else return .empty

/-- One level of an expression, and whether it may stand as a statement without a semicolon. -/
def exprPhrase (g : Nesting) (allowStruct : Bool) : Reader ExprPhrase := do
  if ← Reader.front (Front.op "..") then
    return (← fun ts => operatorsFuel g allowStruct (ts.length + 1) false false ts, false)
  let (p, isStatement) ← operand g allowStruct
  let more ← fun ts => operatorsFuel g allowStruct (ts.length + 1) false false ts
  return (p ++ more, isStatement && more.printed.isEmpty)

/-- One level of an expression. -/
def expr (g : Nesting) (allowStruct : Bool) : Reader Phrase := do
  return (← exprPhrase g allowStruct).1

/-! ## Statements -/

/-- An expression with a block of its own goes on here as a part of a larger one. -/
def continues (ts : List Placed) : Bool :=
  (Front.op "." ts && !Front.op ".." ts) || Front.op "?" ts

/-- One level of an expression where a statement or an arm starts, and whether it may end there
without a sign.  An expression that ends with its own block ends the statement, unless a dot or a
question mark follows. -/
def statementExpr (g : Nesting) : Reader ExprPhrase := do
  let attrs ← g.attributes
  if ← Reader.front startsBlock then
    let (p, _) ← atom g true
    if ← Reader.front continues then
      let behind ← Reader.many (trailer g)
      let more ← fun ts => operatorsFuel g true (ts.length + 1) false false ts
      return (attrs ++ p ++ behind ++ more, false)
    else return (attrs ++ p, true)
  else
    let (p, isStatement) ← exprPhrase g true
    return (attrs ++ p, isStatement)

/-- The text of a phrase ends with a closing brace. -/
def endsWithBrace (p : Phrase) : Bool := p.printed.getLast? == some (.closing .brace)

/-- A binding.  What happens if its pattern does not fit may follow the value. -/
def binding (g : Nesting) : Reader Phrase := do
  let w ← Reader.word "let"
  let p ← pattern g
  let type ←
    match ← Reader.op? ":" with
    | some colon => pure (colon ++ (← g.anyType))
    | none => pure .empty
  let value ←
    match ← Reader.op? "=" with
    | some eq =>
      let value ← g.expr true
      if !endsWithBrace value && (← Reader.front (Front.word "else")) then
        pure (eq ++ value ++ (← wordBlock g "else"))
      else pure (eq ++ value)
    | none => pure .empty
  return w ++ p ++ type ++ value ++ (← Reader.op ";")

/-- One statement, if the block does not end here. -/
def statement? (g : Nesting) : Reader (Option Phrase) := do
  if ← Reader.front Front.ends then return none
  else if ← Reader.front (Front.op ";") then return some (← Reader.op ";")
  else
    let attrs ← g.attributes
    if ← Reader.front (Front.word "let") then return some (attrs ++ (← binding g))
    else
      let (p, isStatement) ← statementExpr g
      match ← Reader.op? ";" with
      | some semi => return some (attrs ++ p ++ semi)
      | none =>
        if isStatement || (← Reader.front Front.ends) then return some (attrs ++ p)
        else Reader.breaks .statementEnd

/-- One level of a block. -/
def block (g : Nesting) : Reader Phrase := do
  let p ← Reader.inside .brace (Reader.many (statement? g))
  return .bracketed .brace p

end Grammar

/-! ## All levels -/

namespace Nesting

/-- No level is left. -/
def none : Nesting where
  type := fun _ => Reader.failWith fun _ => .tooDeep
  expr := fun _ => Reader.failWith fun _ => .tooDeep
  statement := Reader.failWith fun _ => .tooDeep
  block := Reader.failWith fun _ => .tooDeep
  bound := fun _ => Reader.failWith fun _ => .tooDeep

/-- One level above `g`. -/
def above (g : Nesting) : Nesting where
  type := Grammar.type g
  expr := Grammar.expr g
  statement := Grammar.statementExpr g
  block := Grammar.block g
  bound := Grammar.bound g

/-- The readers for source that nests at most `depth` deep. -/
def levels : Nat → Nesting
  | 0 => none
  | depth + 1 => (levels depth).above

/-- The readers for what is left to read.  A level takes at least one token before it asks for the
next one, except that an expression may start with a block, a block with an expression, and an
argument with a type, so three levels for each token are enough. -/
def forTokens (ts : List Placed) : Nesting := levels (3 * ts.length + 3)

end Nesting

/-- Read with as many levels as the list can need. -/
def Reader.nested {α : Type} (p : Nesting → Reader α) : Reader α := fun ts =>
  p (Nesting.forTokens ts) ts

/-- Read a type. -/
def readType : Reader Phrase := Reader.nested Nesting.anyType

end KeyedRecord.Source
