import KeyedRecord.Derive.Refusal

/-!
# Helper attributes

What `#[objdict(...)]` says about a type, about a field, and about a property declared on the type.

The arguments of a helper attribute are a list of entries with commas between them.  Entries are
read one by one from the left, so the first bad one is reported.  What they say together depends on
the entries alone and not on how they are spread over attributes: for a key with a value the last
entry counts, properties add up, and a flag is set if it occurs.

The readers are `parse_container_attributes`, `parse_field_attributes`, `parse_property` and
`string_value`, over `ParseNestedMeta`.  What they make of attributes that are laid out otherwise is
said by `ofAttributes_regrouped` and `readProperty_reordered`.
-/

set_option autoImplicit false

namespace KeyedRecord.Derive

open Source

/-! ## Entries -/

/-- Reads tokens and may refuse. -/
abbrev Reading (α : Type) := StateT (List Placed) (Except Refusal) α

namespace Reading

/-- A reader of the grammar. -/
def source {α : Type} (p : Reader α) : Reading α := fun ts => (p ts).mapError Refusal.ofProblem

/-- Refuse for a fault at a place. -/
def refuse {α : Type} (f : Fault) (span : Option Span) : Reading α := fun _ => .error ⟨f, span⟩

/-- Refuse for a fault at the front. -/
def refuseHere {α : Type} (f : Fault) : Reading α := fun ts => .error ⟨f, Front.span? ts⟩

/-- Nothing more may be read. -/
def ends : Reading Bool := source (Reader.front Front.ends)

end Reading

/-- The first word of a key, whatever it is. -/
def readKeyStart : Reading Placed := do
  if ← Reading.source (Reader.front Front.anyWord) then Reading.source Reader.next
  else if ← Reading.ends then Reading.refuseHere .entryMissing
  else if ← Reading.source (Reader.front Front.literal) then Reading.refuseHere .literalAsKey
  else Reading.refuseHere .signAsKey

/-- The other words of a key. -/
def readKeyRest : Nat → Reading (List Placed)
  | 0 => return []
  | fuel + 1 => do
    match ← Reading.source (Reader.op? "::") with
    | none => return []
    | some _ =>
      if !(← Reading.source (Reader.front Front.anyWord)) then
        Reading.source (Reader.missing [.anyWord])
      let w ← Reading.source Reader.next
      let ws ← readKeyRest fuel
      return w :: ws

/-- A key: a path of words, reserved or not. -/
def readKey : Reading PlainPath := do
  let leading := (← Reading.source (Reader.op? "::")).isSome
  let w ← readKeyStart
  let ws ← fun ts => readKeyRest ts.length ts
  return ⟨leading, w :: ws⟩

/-- Where a key stands. -/
def keySpan (key : PlainPath) : Option Span :=
  match key.segments.head?, key.segments.getLast? with
  | some first, some last => some (first.span.through last.span)
  | _, _ => none

/-- At least one entry, with commas between the entries and possibly one behind the last
(`parse_nested_meta`). -/
def entriesFuel {α : Type} (entry : PlainPath → Reading α) : Nat → Reading (List α)
  | 0 => Reading.refuseHere (.grammar .tooDeep)
  | fuel + 1 => do
    let key ← readKey
    let a ← entry key
    if ← Reading.ends then return [a]
    let _ ← Reading.source (Reader.op ",")
    if ← Reading.ends then return [a]
    let as ← entriesFuel entry fuel
    return a :: as

/-- At least one entry, with commas between the entries and possibly one behind the last. -/
def entries {α : Type} (entry : PlainPath → Reading α) : Reading (List α) := fun ts =>
  entriesFuel entry (ts.length + 1) ts

/-- The string that is the value of an entry (`string_value`). -/
def stringValue : Reading StringLiteral := do
  let _ ← Reading.source (Reader.op "=")
  let lit ← Reading.source Reader.literal
  match StringLiteral.ofPlaced? lit with
  | some s => return s
  | none => Reading.refuse .stringWanted (some lit.span)

/-- The source in the string that is the value of an entry. -/
def sourceValue {α : Type} (p : Reader α) : Reading α := do
  let s ← stringValue
  fun ts => match s.read p with
    | .ok a => .ok (a, ts)
    | .error e => .error (.ofProblem e)

/-! ## Attributes of one path -/

/-- The entries of one attribute; none for an attribute of another path. -/
def entriesOf {α : Type} (entry : PlainPath → Reading α) (a : Attribute) :
    Except Refusal (List α) :=
  if !a.path.isIdent "objdict" then .ok []
  else match a.body with
    | .bare => .error ⟨.argumentsMissing a.path.text, keySpan a.path⟩
    | .value eq _ => .error ⟨.parenthesesMissing a.path.text, some eq⟩
    | .list _ inner close =>
      if inner.isEmpty then .ok []
      else (entries entry (inner ++ [close])).map (·.1)

/-- The entries of all attributes, in the order of the source. -/
def allEntries {α : Type} (entry : PlainPath → Reading α) (as : List Attribute) :
    Except Refusal (List α) := do
  return (← as.mapM (entriesOf entry)).flatten

/-! ## Properties -/

/-- One entry of a property. -/
inductive PropertyEntry where
  | name (s : StringLiteral)
  | type (p : Phrase)
  | getter (name : String)
  | setter (name : String)
  | visibility (v : Visibility)
  | included
  | ignored
  deriving DecidableEq, Repr

/-- Read one entry of a property. -/
def propertyEntry (key : PlainPath) : Reading PropertyEntry := do
  if key.isIdent "name" then return .name (← stringValue)
  else if key.isIdent "ty" then return .type (← sourceValue readType)
  else if key.isIdent "get" then return .getter (← sourceValue Reader.identifier)
  else if key.isIdent "set" then return .setter (← sourceValue Reader.identifier)
  else if key.isIdent "vis" then return .visibility (← sourceValue Visibility.read)
  else if key.isIdent "include" then return .included
  else if key.isIdent "ignore" then return .ignored
  else Reading.refuse (.unknownKey .property) (keySpan key)

/-- A member that is reached through methods, declared on the type (`PropertyAttributes`). -/
structure PropertyAttributes where
  name : String
  nameSpan : Span
  type : Phrase
  getter : Option String
  setter : Option String
  visibility : Visibility
  included : Bool
  ignored : Bool
  deriving DecidableEq, Repr

/-- The last value that a list of entries gives. -/
def lastOf {α β : Type} (f : α → Option β) (entries : List α) : Option β :=
  (entries.filterMap f).getLast?

namespace PropertyAttributes

/-- What the entries of a property say together.  Name and type are required. -/
def ofEntries (es : List PropertyEntry) : Except Fault PropertyAttributes := do
  let name ← match lastOf (fun | .name s => some s | _ => none) es with
    | some s => pure s
    | none => throw .nameMissing
  let type ← match lastOf (fun | .type p => some p | _ => none) es with
    | some p => pure p
    | none => throw .typeMissing
  return {
    name := name.value
    nameSpan := name.span
    type
    getter := lastOf (fun | .getter n => some n | _ => none) es
    setter := lastOf (fun | .setter n => some n | _ => none) es
    visibility := (lastOf (fun | .visibility v => some v | _ => none) es).getD .unrestricted
    included := es.contains .included
    ignored := es.contains .ignored }

end PropertyAttributes

/-- Read a property, from behind its key (`parse_property`). -/
def readProperty (key : PlainPath) : Reading PropertyAttributes := do
  let _ ← Reading.source (Reader.opening .paren)
  let es ← entries propertyEntry
  let close ← Reading.source (Reader.closing .paren)
  match PropertyAttributes.ofEntries es with
  | .ok p => return p
  | .error f => Reading.refuse f ((key.segments.head?).map fun w => w.span.through close)

/-! ## The container -/

/-- One entry of a type's attributes. -/
inductive ContainerEntry where
  | nameSpace (s : String)
  | crate (path : Phrase)
  | property (p : PropertyAttributes)
  deriving DecidableEq, Repr

/-- Read a path with its arguments. -/
def readPath : Reader Phrase := Reader.nested fun g => do return (← Grammar.path g false).phrase

/-- Read one entry of a type's attributes. -/
def containerEntry (key : PlainPath) : Reading ContainerEntry := do
  if key.isIdent "namespace" then return .nameSpace (← stringValue).value
  else if key.isIdent "crate" then return .crate (← sourceValue readPath)
  else if key.isIdent "property" then return .property (← readProperty key)
  else Reading.refuse (.unknownKey .container) (keySpan key)

/-- What the attributes of a type say (`ContainerAttributes`). -/
structure ContainerAttributes where
  nameSpace : Option String
  crate : Option Phrase
  properties : List PropertyAttributes
  deriving DecidableEq, Repr

namespace ContainerAttributes

/-- What the entries of a type's attributes say together. -/
def ofEntries (es : List ContainerEntry) : ContainerAttributes where
  nameSpace := lastOf (fun | .nameSpace s => some s | _ => none) es
  crate := lastOf (fun | .crate p => some p | _ => none) es
  properties := es.filterMap fun | .property p => some p | _ => none

/-- Read the attributes of a type (`parse_container_attributes`). -/
def ofAttributes (as : List Attribute) : Except Refusal ContainerAttributes := do
  return ofEntries (← allEntries containerEntry as)

end ContainerAttributes

/-! ## Fields -/

/-- One entry of a field's attributes. -/
inductive FieldEntry where
  | included
  | ignored
  deriving DecidableEq, Repr

/-- Read one entry of a field's attributes. -/
def fieldEntry (key : PlainPath) : Reading FieldEntry := do
  if key.isIdent "include" then return .included
  else if key.isIdent "ignore" then return .ignored
  else Reading.refuse (.unknownKey .field) (keySpan key)

/-- What the attributes of a field say (`FieldAttributes`). -/
structure FieldAttributes where
  included : Bool
  ignored : Bool
  deriving DecidableEq, Repr

namespace FieldAttributes

/-- What the entries of a field's attributes say together. -/
def ofEntries (es : List FieldEntry) : FieldAttributes :=
  ⟨es.contains .included, es.contains .ignored⟩

/-- Read the attributes of a field (`parse_field_attributes`). -/
def ofAttributes (as : List Attribute) : Except Refusal FieldAttributes := do
  return ofEntries (← allEntries fieldEntry as)

end FieldAttributes

end KeyedRecord.Derive
