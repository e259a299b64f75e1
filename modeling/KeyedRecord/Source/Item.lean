import KeyedRecord.Source.Generics

/-!
# Declarations of types

A declaration is a structure, an enumeration or a union with its attributes.  Only a structure's
fields are kept: the others are read to check them.

A declaration is a `DeriveInput`, its fields are `Fields`, and `readText` is `parse_str`.
-/

set_option autoImplicit false

namespace KeyedRecord.Source

/-- One field of a structure. -/
structure Field where
  attributes : List Attribute
  visibility : Visibility
  /-- The name as written, raw or not; none in a tuple. -/
  name : Option String
  type : Phrase
  /-- The whole field, with its attributes. -/
  span : Option Span
  deriving DecidableEq, Repr

/-- The fields of a structure, by its shape. -/
inductive Fields where
  | named (fields : List Field)
  | unnamed (fields : List Field)
  | unit
  deriving DecidableEq, Repr

/-- The fields in the order of the declaration. -/
def Fields.toList : Fields → List Field
  | named fields => fields
  | unnamed fields => fields
  | unit => []

/-- What is declared. -/
inductive ItemData where
  | struct (fields : Fields)
  | enumeration
  | union
  deriving DecidableEq, Repr

/-- The declaration of a type. -/
structure Item where
  attributes : List Attribute
  visibility : Visibility
  /-- The name as written, raw or not. -/
  name : String
  generics : Generics
  data : ItemData
  deriving DecidableEq, Repr

namespace Field

/-- The span is that of the tokens taken. -/
def withSpan (p : Reader Field) : Reader Field := do
  let (f, span) ← Reader.spanned p
  return { f with span := span }

/-- The fields of a structure or a union without a name stand here, in place of a type. -/
def startsInline (ts : List Placed) : Bool :=
  Front.word "struct" ts || (Front.word "union" ts && Front.opening .brace (ts.drop 1))

/-- The tokens that `p` takes, as they stand. -/
def asWritten {α : Type} (p : Reader α) : Reader Phrase := fun ts => do
  let (_, r) ← p ts
  return (.ofTokens (tokensOf (ts.take (ts.length - r.length))), r)

/-- Read the name of a field. -/
def readName (unnamed : Bool) : Reader String :=
  if unnamed then Reader.anyWord else Reader.identifier

/-- Read the type of a field.  Behind the name `_`, fields between braces may stand in its place. -/
def readType (g : Nesting) (fields : Reader (List (Field × Bool))) (unnamed : Bool) :
    Reader Phrase := do
  if unnamed && (← Reader.front startsInline) then
    asWritten do
      let _ ← Reader.anyWord
      Reader.inside .brace fields
  else g.anyType

/-- Read a field with a name, as deep as `fuel`. -/
def readNamedFuel (g : Nesting) : Nat → Reader Field
  | 0 => Reader.failWith fun _ => .tooDeep
  | fuel + 1 => withSpan do
    let attributes ← Attribute.readAll (g.expr true)
    let visibility ← Visibility.read
    let unnamed ← Reader.front (Front.word "_")
    let name ← readName unnamed
    let _ ← Reader.op ":"
    let t ← readType g (Reader.listUntil Front.ends "," (readNamedFuel g fuel)) unnamed
    return ⟨attributes, visibility, some name, t, none⟩

/-- Read a field with a name.  Each level takes a token. -/
def readNamed (g : Nesting) : Reader Field := fun ts => readNamedFuel g (ts.length + 1) ts

/-- Read a field of a tuple. -/
def readUnnamed (g : Nesting) : Reader Field := withSpan do
  let attributes ← Attribute.readAll (g.expr true)
  let visibility ← Visibility.read
  let t ← g.anyType
  return ⟨attributes, visibility, none, t, none⟩

end Field

namespace Fields

/-- Read fields between braces. -/
def readNamed (g : Nesting) : Reader Fields := do
  let fields ← Reader.inside .brace (Reader.listUntil Front.ends "," (Field.readNamed g))
  return named (fields.map (·.1))

/-- Read fields between parentheses. -/
def readUnnamed (g : Nesting) : Reader Fields := do
  let fields ← Reader.inside .paren (Reader.listUntil Front.ends "," (Field.readUnnamed g))
  return unnamed (fields.map (·.1))

end Fields

namespace Item

/-- Read what follows the parameters of a structure: the conditions and the fields.  In a tuple the
conditions stand behind the fields. -/
def readStruct (g : Nesting) : Reader (Option Phrase × Fields) := do
  let conditions ← WhereClause.read? g
  if conditions.isNone && (← Reader.front (Front.opening .paren)) then
    let fields ← Fields.readUnnamed g
    let conditions ← WhereClause.read? g
    let _ ← Reader.op ";"
    return (conditions, fields)
  else if ← Reader.front (Front.opening .brace) then
    return (conditions, ← Fields.readNamed g)
  else
    let _ ← Reader.op ";"
    return (conditions, .unit)

/-- Read one variant of an enumeration. -/
def readVariant (g : Nesting) : Reader Unit := do
  let _ ← Attribute.readAll (g.expr true)
  let _ ← Visibility.read
  let _ ← Reader.identifier
  if ← Reader.front (Front.opening .brace) then let _ ← Fields.readNamed g
  else if ← Reader.front (Front.opening .paren) then let _ ← Fields.readUnnamed g
  if ← Reader.front (Front.op "=") then
    let _ ← Reader.op "="
    let _ ← g.expr true

/-- Read what follows the parameters of an enumeration. -/
def readEnumeration (g : Nesting) : Reader (Option Phrase) := do
  let conditions ← WhereClause.read? g
  let _ ← Reader.inside .brace (Reader.listUntil Front.ends "," (readVariant g))
  return conditions

/-- Read what follows the parameters of a union. -/
def readUnion (g : Nesting) : Reader (Option Phrase) := do
  let conditions ← WhereClause.read? g
  let _ ← Fields.readNamed g
  return conditions

/-- Read a declaration. -/
def readWith (g : Nesting) : Reader Item := do
  let attributes ← Attribute.readAll (g.expr true)
  let visibility ← Visibility.read
  let keyword ← Reader.anyWord
  if keyword != "struct" && keyword != "enum" && keyword != "union" then
    Reader.missing [.word "struct", .word "enum", .word "union"]
  let name ← Reader.identifier
  let generics ← Generics.read g
  if keyword == "struct" then
    let (conditions, fields) ← readStruct g
    return ⟨attributes, visibility, name, { generics with conditions := conditions },
      .struct fields⟩
  else if keyword == "enum" then
    let conditions ← readEnumeration g
    return ⟨attributes, visibility, name, { generics with conditions := conditions }, .enumeration⟩
  else
    let conditions ← readUnion g
    return ⟨attributes, visibility, name, { generics with conditions := conditions }, .union⟩

/-- Read a declaration. -/
def read : Reader Item := Reader.nested readWith

end Item

/-! ## Whole texts -/

/-- Read a whole text. -/
def readText {α : Type} (p : Reader α) (text : String) : Except Problem α :=
  match lex text with
  | .error at? => .error ⟨.notTokens, some ⟨at?, at?⟩⟩
  | .ok ts => Reader.whole p ts

/-- Read a text that is one declaration. -/
def Item.ofText (text : String) : Except Problem Item := readText Item.read text

/-- Read a text that is outer attributes alone. -/
def Attribute.listOfText (text : String) : Except Problem (List Attribute) :=
  readText (Reader.nested fun g => Attribute.readAll (g.expr true)) text

end KeyedRecord.Source
