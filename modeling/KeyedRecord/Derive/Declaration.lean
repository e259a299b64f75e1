import KeyedRecord.Derive.Attributes
import KeyedRecord.Policy

/-!
# The table of declared members

A declaration as the rest of the pipeline sees it: the type, and every member that it declares, with
nothing left out yet.  Properties come first, then fields, each in the order of the source, and no
two members have one name.  A field is known by its name without `r#`, or by its position in the
declaration.

Enumerations and unions have a table too, but no shape: they cannot be extended.

The table is a `TypeDecl`, its rows are `MemberDecl`, and `TypeDecl.ofItem` is
`TypeDecl::from_derive_input`.
-/

set_option autoImplicit false

namespace KeyedRecord.Derive

open Source

/-- The shape of a structure (`TypeKind`). -/
inductive TypeKind where
  | struct
  | tupleStruct
  | unitStruct
  deriving DecidableEq, Repr

/-- How a field is named in code (`Member`). -/
inductive Place where
  | named (ident : String)
  | position (index : Nat)
  deriving DecidableEq, Repr

/-- The name of a field as source. -/
def Place.token : Place → Token
  | named ident => .ident ident
  | position index => .literal (toString index)

/-- What a member is (`MemberKind`). -/
inductive MemberKind where
  | field (place : Place)
  | property (getter setter : Option String)
  deriving DecidableEq, Repr

/-- One declared member (`MemberDecl`). -/
structure MemberDecl where
  name : String
  /-- Where the name is written, or the whole field. -/
  span : Option Span
  type : Phrase
  visibility : Visibility
  included : Bool
  ignored : Bool
  kind : MemberKind
  deriving DecidableEq, Repr

namespace MemberDecl

/-- Everyone may name the member (`is_public`). -/
def isPublic (m : MemberDecl) : Bool := m.visibility.isPublic

/-- What is declared about the member's part in the conversion. -/
def policy (m : MemberDecl) : Policy := ⟨m.isPublic, m.included, m.ignored⟩

end MemberDecl

/-- A declared type with the table of its members (`TypeDecl`). -/
structure TypeDecl where
  name : String
  /-- The shape; none for what cannot be extended. -/
  kind : Option TypeKind
  visibility : Visibility
  nameSpace : String
  /-- The path of the library that generated code calls. -/
  crate : Phrase
  generics : Generics
  members : List MemberDecl
  deriving DecidableEq, Repr

/-- A name without `r#` (`unraw`). -/
def unraw (ident : String) : String :=
  match ident.toList with
  | 'r' :: '#' :: r => String.ofList r
  | _ => ident

/-- The library that generated code calls unless the declaration names another. -/
def defaultCrate : Phrase := .operator "::" ++ .word "objdict"

/-- The member that a property declares. -/
def PropertyAttributes.member (p : PropertyAttributes) : MemberDecl where
  name := p.name
  span := some p.nameSpan
  type := p.type
  visibility := p.visibility
  included := p.included
  ignored := p.ignored
  kind := .property p.getter p.setter

/-- The name and the place of a field at a position. -/
def fieldName (f : Field) (index : Nat) : String × Place :=
  match f.name with
  | some ident => (unraw ident, .named ident)
  | none => (toString index, .position index)

/-- The member that a field declares. -/
def fieldMember (f : Field) (index : Nat) : Except Refusal MemberDecl := do
  let attrs ← FieldAttributes.ofAttributes f.attributes
  let (name, place) := fieldName f index
  return {
    name
    span := f.span
    type := f.type
    visibility := f.visibility
    included := attrs.included
    ignored := attrs.ignored
    kind := .field place }

/-- The members that the fields from a position on declare. -/
def fieldMembers : Nat → List Field → Except Refusal (List MemberDecl)
  | _, [] => .ok []
  | index, f :: fs => do
    let m ← fieldMember f index
    let ms ← fieldMembers (index + 1) fs
    return m :: ms

/-- The first member whose name another member before it has. -/
def firstDuplicate : List String → List MemberDecl → Option MemberDecl
  | _, [] => none
  | seen, m :: ms =>
    if seen.contains m.name then some m else firstDuplicate (m.name :: seen) ms

/-- The shape of a structure with these fields. -/
def TypeKind.ofFields : Fields → TypeKind
  | .named _ => struct
  | .unnamed _ => tupleStruct
  | .unit => unitStruct

namespace TypeDecl

/-- The shape of what is declared, and its fields. -/
def shape : ItemData → Option TypeKind × List Field
  | .struct fields => (some (.ofFields fields), fields.toList)
  | .enumeration => (none, [])
  | .union => (none, [])

/-- The table of a declaration.  The attributes of the type are read first, then those of the fields
in their order, and then the names are compared. -/
def ofItem (item : Item) : Except Refusal TypeDecl := do
  let container ← ContainerAttributes.ofAttributes item.attributes
  let (kind, fields) := shape item.data
  let fieldTable ← fieldMembers 0 fields
  let members := container.properties.map PropertyAttributes.member ++ fieldTable
  match firstDuplicate [] members with
  | some m => throw ⟨.duplicate m.name, m.span⟩
  | none =>
    return {
      name := item.name
      kind
      visibility := item.visibility
      nameSpace := container.nameSpace.getD ""
      crate := container.crate.getD defaultCrate
      generics := item.generics
      members }

end TypeDecl

end KeyedRecord.Derive
