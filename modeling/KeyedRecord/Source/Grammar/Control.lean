import KeyedRecord.Source.Grammar.Pattern

/-!
# Control flow

The rules for branches, loops, choices and closures: what holds blocks and patterns, and takes the
expressions inside from one level deeper.
-/

set_option autoImplicit false

namespace KeyedRecord.Source

namespace Grammar

/-! ## Branches and loops -/

/-- A word and the block that follows it. -/
def wordBlock (g : Nesting) (w : String) : Reader Phrase := do
  let w ← Reader.word w
  return w ++ (← g.block)

/-- A branch with its alternatives. -/
def branchFuel (g : Nesting) : Nat → Reader Phrase
  | 0 => Reader.failWith fun _ => .tooDeep
  | fuel + 1 => do
    let w ← Reader.word "if"
    let cond ← g.expr false
    let body ← g.block
    if ← Reader.front (Front.word "else") then
      let other ← Reader.word "else"
      if ← Reader.front (Front.word "if") then
        return w ++ cond ++ body ++ other ++ (← branchFuel g fuel)
      else return w ++ cond ++ body ++ other ++ (← g.block)
    else return w ++ cond ++ body

/-- A branch with its alternatives. -/
def branch (g : Nesting) : Reader Phrase := fun ts => branchFuel g (ts.length + 1) ts

/-- A match of a value with a pattern, as a condition. -/
def patternCondition (g : Nesting) (allowStruct : Bool) : Reader Phrase := do
  let w ← Reader.word "let"
  let p ← patterns g
  let eq ← Reader.op "="
  return w ++ p ++ eq ++ (← g.expr allowStruct)

/-- A binder of lifetimes stands here, and no loop. -/
def startsClosureBinder (ts : List Placed) : Bool :=
  Front.word "for" ts && Front.op "<" (ts.drop 1)
    && (Front.lifetime (ts.drop 2) || Front.op ">" (ts.drop 2))

/-- A loop over the items of a value starts here. -/
def startsFor (ts : List Placed) : Bool := Front.word "for" ts && !startsClosureBinder ts

/-- Something that a label can name starts here. -/
def startsLabelled (ts : List Placed) : Bool :=
  startsFor ts || Front.word "while" ts || Front.word "loop" ts || Front.opening .brace ts

/-- A loop, or a block. -/
def loopOrBlock (g : Nesting) : Reader Phrase := do
  if ← Reader.front startsFor then
    let w ← Reader.word "for"
    let p ← patterns g
    let source ← Reader.word "in"
    let items ← g.expr false
    return w ++ p ++ source ++ items ++ (← g.block)
  else if ← Reader.front (Front.word "while") then
    let w ← Reader.word "while"
    let cond ← g.expr false
    return w ++ cond ++ (← g.block)
  else if ← Reader.front (Front.word "loop") then wordBlock g "loop"
  else g.block

/-- A loop or a block behind its label. -/
def labelled (g : Nesting) : Reader Phrase := do
  let label ← Reader.lifetime
  let colon ← Reader.op ":"
  if ← Reader.front startsLabelled then return label ++ colon ++ (← loopOrBlock g)
  else Reader.breaks .unlabelled

/-! ## Choices -/

/-- A word that a block follows, with nothing between them, stands here. -/
def startsWordBlock (w : String) (ts : List Placed) : Bool :=
  Front.word w ts && Front.opening .brace (ts.drop 1)

/-- An expression starts here that ends with a block of its own, and ends a statement. -/
def startsBlock (ts : List Placed) : Bool :=
  Front.word "if" ts || Front.word "match" ts || startsLabelled ts || Front.lifetime ts
    || startsWordBlock "unsafe" ts || startsWordBlock "const" ts || startsWordBlock "try" ts

/-- One arm of a choice, if the choice does not end here.  A comma follows any arm but the last and
those that end with a block. -/
def arm? (g : Nesting) : Reader (Option Phrase) := do
  if ← Reader.front Front.ends then return none
  let attrs ← g.attributes
  let p ← patterns g
  let guard ←
    if ← Reader.front (Front.word "if") then
      let w ← Reader.word "if"
      pure (w ++ (← g.expr true))
    else pure .empty
  let arrow ← Reader.op "=>"
  let isBlock ← Reader.front startsBlock
  let (body, isStatement) ← g.statement
  let comma ←
    if (isBlock && isStatement) || (← Reader.front Front.ends) then
      Phrase.ofOption <$> Reader.op? ","
    else Reader.op ","
  return some (attrs ++ p ++ guard ++ arrow ++ body ++ comma)

/-- A choice among patterns. -/
def choice (g : Nesting) : Reader Phrase := do
  let w ← Reader.word "match"
  let subject ← g.expr false
  let arms ← Reader.inside .brace (Reader.many (arm? g))
  return w ++ subject ++ .bracketed .brace arms

/-! ## Closures -/

/-- A closure starts here. -/
def startsClosure (ts : List Placed) : Bool :=
  Front.op "|" ts || Front.word "move" ts || startsClosureBinder ts || Front.word "static" ts
    || (Front.word "const" ts && !Front.opening .brace (ts.drop 1))
    || (Front.word "async" ts && (Front.op "|" (ts.drop 1) || Front.word "move" (ts.drop 1)))

/-- An argument of a closure. -/
def closureArgument (g : Nesting) : Reader Phrase := do
  let attrs ← g.attributes
  let p ← pattern g
  match ← Reader.op? ":" with
  | some colon => return attrs ++ p ++ colon ++ (← g.anyType)
  | none => return attrs ++ p

/-- A closure; with the type of its result the body is a block. -/
def closure (g : Nesting) (allowStruct : Bool) : Reader Phrase := do
  let binder ← binder? g
  let const ← word? "const"
  let static ← word? "static"
  let async ← word? "async"
  let move ← word? "move"
  let left ← Reader.op "|"
  let arguments ← Reader.listUntil (Front.op "|") "," (closureArgument g)
  let right ← Reader.op "|"
  let head := Phrase.ofOption binder ++ const ++ static ++ async ++ move ++ left ++
    .separated "," arguments ++ right
  match ← Reader.op? "->" with
  | some arrow =>
    let result ← g.anyType
    return head ++ arrow ++ result ++ (← g.block)
  | none => return head ++ (← g.expr allowStruct)

/-- A block that runs later starts here. -/
def startsAsyncBlock (ts : List Placed) : Bool :=
  startsWordBlock "async" ts
    || (Front.word "async" ts && startsWordBlock "move" (ts.drop 1))

/-- A block that runs later. -/
def asyncBlock (g : Nesting) : Reader Phrase := do
  let w ← Reader.word "async"
  let move ← word? "move"
  return w ++ move ++ (← g.block)

/-! ## Words that leave -/

/-- A value starts here, behind a word that leaves a block or a function. -/
def startsValue (ts : List Placed) : Bool :=
  Front.anyWord ts || Front.opening .paren ts || Front.opening .bracket ts
    || Front.opening .brace ts || Front.literal ts || Front.lifetime ts || Front.op "::" ts
    || Front.op "#" ts || Front.op ".." ts
    || (Front.op "!" ts && !Front.op "!=" ts) || (Front.op "*" ts && !Front.op "*=" ts)
    || (Front.op "-" ts && !Front.op "-=" ts && !Front.op "->" ts)
    || (Front.op "|" ts && !Front.op "|=" ts) || (Front.op "&" ts && !Front.op "&=" ts)
    || (Front.op "<" ts && !Front.op "<=" ts && !Front.op "<<=" ts)

/-- A word that leaves with the value behind it, if there is one. -/
def leaving (g : Nesting) (allowStruct : Bool) (w : String) : Reader Phrase := do
  let w ← Reader.word w
  if ← Reader.front startsValue then return w ++ (← g.expr allowStruct) else return w

/-- An end of a loop or of a labelled block, with its value. -/
def leavingLoop (g : Nesting) (allowStruct : Bool) : Reader Phrase := do
  let w ← Reader.word "break"
  let label ← if ← Reader.front Front.lifetime then Reader.lifetime else pure .empty
  if !label.printed.isEmpty && (← Reader.front (Front.op ":")) then Reader.breaks .labelledBreak
  if ← Reader.front fun ts =>
      startsValue ts && (allowStruct || !Front.opening .brace ts) then
    return w ++ label ++ (← g.expr allowStruct)
  else return w ++ label

/-- The next round of a loop. -/
def continuing : Reader Phrase := do
  let w ← Reader.word "continue"
  if ← Reader.front Front.lifetime then return w ++ (← Reader.lifetime) else return w

end Grammar

end KeyedRecord.Source
