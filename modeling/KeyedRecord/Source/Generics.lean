import KeyedRecord.Source.Grammar.Expression

/-!
# Generic parameters and visibilities

The parameters of a declaration keep their order, the commas behind them, and whether a colon stands
before an empty list of bounds: two declarations are the same only if these agree.  They print in
three forms.  `written` repeats the declaration, `implForm` leaves out defaults, and `argumentForm`
keeps the names alone.  Each prints lifetimes before the other parameters, and none prints anything
for an empty list.

These are `Visibility` and `Generics`; `implForm`, `argumentForm` and the conditions are the three
parts of `split_for_impl`.
-/

set_option autoImplicit false

namespace KeyedRecord.Source

/-! ## Visibility -/

/-- Who may name a declaration. -/
inductive Visibility where
  | inherited
  | unrestricted
  /-- `pub(…)`, with its tokens. -/
  | restricted (phrase : Phrase)
  deriving DecidableEq, Repr

namespace Visibility

/-- The visibility as source. -/
def phrase : Visibility → Phrase
  | inherited => .empty
  | unrestricted => .word "pub"
  | restricted p => p

/-- Everyone may name it. -/
def isPublic : Visibility → Bool
  | unrestricted => true
  | _ => false

/-- What stands in the parentheses of a restricted visibility, if they belong to it: one of three
words alone, or a path behind `in`.  Anything else is a type that stands behind a plain `pub`. -/
def restriction? : Reader (Option Phrase) := fun ts =>
  match ts with
  | ⟨.opening .paren, _⟩ :: ⟨.ident "in", _⟩ :: _ =>
    (some <$> Reader.inside .paren do
      let w ← Reader.word "in"
      let p ← PlainPath.read
      return w ++ p.phrase : Reader (Option Phrase)) ts |>.map fun (p, r) =>
        (p.map (Phrase.bracketed .paren), r)
  | ⟨.opening .paren, _⟩ :: ⟨.ident w, _⟩ :: ⟨.closing _, _⟩ :: r =>
    if w = "crate" ∨ w = "self" ∨ w = "super" then
      .ok (some (.bracketed .paren (.word w)), r)
    else .ok (none, ts)
  | _ => .ok (none, ts)

/-- Read a visibility; none is written for an inherited one. -/
def read : Reader Visibility := do
  if ← Reader.front (Front.word "pub") then
    let w ← Reader.word "pub"
    match ← restriction? with
    | some p => return .restricted (w ++ p)
    | none => return .unrestricted
  else return .inherited

end Visibility

/-! ## Parameters -/

/-- One generic parameter. -/
inductive GenericParam where
  | lifetime (attributes name : Phrase) (colon : Bool) (bounds : Phrase)
  | type (attributes : Phrase) (name : String) (colon : Bool) (bounds : Phrase)
      (default : Option Phrase)
  | const (attributes : Phrase) (name : String) (type : Phrase) (default : Option Phrase)
  deriving DecidableEq, Repr

namespace GenericParam

/-- The parameter is a lifetime. -/
def isLifetime : GenericParam → Bool
  | lifetime .. => true
  | _ => false

/-- Bounds behind their colon; nothing for an empty list. -/
def boundsBehindColon (bounds : Phrase) : Phrase :=
  if bounds.printed.isEmpty then .empty else .operator ":" ++ bounds

/-- A default behind its equals sign. -/
def defaultPhrase : Option Phrase → Phrase
  | some d => .operator "=" ++ d
  | none => .empty

/-- The parameter without its default. -/
def implForm : GenericParam → Phrase
  | lifetime attrs name _ bounds => attrs ++ name ++ boundsBehindColon bounds
  | type attrs name _ bounds _ => attrs ++ .word name ++ boundsBehindColon bounds
  | const attrs name t _ => attrs ++ .word "const" ++ .word name ++ .operator ":" ++ t

/-- The parameter as it is declared. -/
def written : GenericParam → Phrase
  | lifetime attrs name colon bounds => implForm (lifetime attrs name colon bounds)
  | type attrs name colon bounds d => implForm (type attrs name colon bounds d) ++ defaultPhrase d
  | const attrs name t d => implForm (const attrs name t d) ++ defaultPhrase d

/-- The name of the parameter alone. -/
def argumentForm : GenericParam → Phrase
  | lifetime _ name _ _ => name
  | type _ name _ _ _ => .word name
  | const _ name _ _ => .word name

/-- The places where a list of bounds in a parameter ends. -/
def boundsEnd (ts : List Placed) : Bool :=
  Front.ends ts || Front.op "," ts || Front.op ">" ts

/-- Read a lifetime with its bounds. -/
def readLifetime (attrs : Phrase) : Reader GenericParam := do
  let name ← Reader.lifetime
  match ← Reader.op? ":" with
  | none => return lifetime attrs name false .empty
  | some _ =>
    let bounds ← Reader.chain boundsEnd "+" Reader.lifetime
    return lifetime attrs name true (.separated "+" bounds)

/-- Read a type parameter. -/
def readType (g : Nesting) (attrs : Phrase) : Reader GenericParam := do
  let name ← Reader.identifier
  let colon := (← Reader.op? ":").isSome
  let bounds ←
    if colon then
      Grammar.boundsPhrase <$>
        Reader.chain (fun ts => boundsEnd ts || Front.op "=" ts) "+" (g.bound ⟨false, true⟩)
    else pure .empty
  match ← Reader.op? "=" with
  | some _ => return type attrs name colon bounds (some (← g.anyType))
  | none => return type attrs name colon bounds none

/-- Read a constant. -/
def readConst (g : Nesting) (attrs : Phrase) : Reader GenericParam := do
  let _ ← Reader.word "const"
  let name ← Reader.identifier
  let _ ← Reader.op ":"
  let t ← g.anyType
  match ← Reader.op? "=" with
  | some _ => return const attrs name t (some (← Grammar.constantArgument g))
  | none => return const attrs name t none

/-- Read one parameter. -/
def read (g : Nesting) : Reader GenericParam := do
  let attrs ← g.attributes
  if ← Reader.front Front.lifetime then readLifetime attrs
  else if ← Reader.front Front.identifier then readType g attrs
  else if ← Reader.front (Front.word "const") then readConst g attrs
  else if ← Reader.front (Front.word "_") then
    return type attrs (← Reader.anyWord) false .empty none
  else Reader.missing [.lifetime, .identifier, .word "const"]

end GenericParam

/-! ## Conditions -/

namespace WhereClause

/-- The places where a list in a where clause ends. -/
def listEnds (ts : List Placed) : Bool :=
  Front.ends ts || Front.opening .brace ts || Front.op "," ts || Front.op ";" ts
    || (Front.op ":" ts && !Front.op "::" ts) || Front.op "=" ts

/-- Read one condition. -/
def readPredicate (g : Nesting) : Reader Phrase := do
  if ← Reader.front fun ts => Front.lifetime ts && Front.op ":" (ts.drop 1) then
    let name ← Reader.lifetime
    let colon ← Reader.op ":"
    let stop (ts : List Placed) : Bool := listEnds ts || Front.op ":" ts
    return name ++ colon ++ .separated "+" (← Reader.chain stop "+" Reader.lifetime)
  else
    let binder ← Grammar.binder? g
    let bounded ← g.anyType
    let colon ← Reader.op ":"
    let bounds ← Reader.chain listEnds "+" (g.bound ⟨false, true⟩)
    return Phrase.ofOption binder ++ bounded ++ colon ++ Grammar.boundsPhrase bounds

/-- Read a where clause, as the phrase of its conditions. -/
def read (g : Nesting) : Reader Phrase := do
  let _ ← Reader.word "where"
  return .separated "," (← Reader.chain listEnds "," (readPredicate g))

/-- Read a where clause if one stands here. -/
def read? (g : Nesting) : Reader (Option Phrase) := do
  if ← Reader.front (Front.word "where") then return some (← read g) else return none

/-- A where clause as source; nothing without conditions. -/
def phrase : Option Phrase → Phrase
  | some p => if p.printed.isEmpty then .empty else .word "where" ++ p
  | none => .empty

end WhereClause

/-! ## Parameter lists -/

/-- The generic parameters of a declaration. -/
structure Generics where
  /-- The angle brackets are written. -/
  angled : Bool
  /-- Each parameter, and whether a comma follows it. -/
  params : List (GenericParam × Bool)
  /-- The conditions, if `where` is written. -/
  conditions : Option Phrase
  deriving DecidableEq, Repr

namespace Generics

/-- No parameters at all. -/
def empty : Generics := ⟨false, [], none⟩

/-- The parameters, each in one form. -/
def inForm (form : GenericParam → Phrase) (g : Generics) : Phrase :=
  if g.params.isEmpty then .empty
  else .operator "<" ++ lifetimesFirst (g.params.map fun (p, comma) =>
    (p.isLifetime, form p, comma))
    ++ .operator ">"

/-- The parameters as they are declared. -/
def written (g : Generics) : Phrase := g.inForm GenericParam.written

/-- The parameters of an implementation: without defaults. -/
def implForm (g : Generics) : Phrase := g.inForm GenericParam.implForm

/-- The arguments that name the declared type: names alone. -/
def argumentForm (g : Generics) : Phrase := g.inForm GenericParam.argumentForm

/-- The conditions as source. -/
def wherePhrase (g : Generics) : Phrase := WhereClause.phrase g.conditions

/-- Read the parameters between angle brackets, if any are written. -/
def read (g : Nesting) : Reader Generics := do
  if ← Reader.front (Front.op "<") then
    let _ ← Reader.op "<"
    let params ← Reader.listUntil (Front.op ">") "," (GenericParam.read g)
    let _ ← Reader.op ">"
    return ⟨true, params, none⟩
  else return empty

end Generics

end KeyedRecord.Source
