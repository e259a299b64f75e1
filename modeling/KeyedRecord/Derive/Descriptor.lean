import KeyedRecord.Derive.Declaration
import KeyedRecord.Derive.Event

/-!
# Descriptors

A descriptor is all that code is generated from: the type, and its selected members in the order of
the table.  The type of a member is kept as canonical text.

Scanning a table selects the members that take part and reports, for each of the others, the first
reason against it.  A table without a shape yields no descriptor, whatever its members are.

The descriptor is a `TypeDescriptor` of `MemberDescriptor`, and scanning is `scan` with `select`.
Principal results about them, in `Proofs.Derive.MemberTable` and `Proofs.Derive.Scanning`:
`names_selected_sublist` and `scan_accounts`.
-/

set_option autoImplicit false

namespace KeyedRecord.Derive

open Source

/-- Who may name a type, as far as generated code asks (`Accessibility`). -/
inductive Accessibility where
  | everyone
  | internal
  deriving DecidableEq, Repr

/-- Every restricted or inherited visibility is internal (`from_visibility`). -/
def Accessibility.ofVisibility : Visibility → Accessibility
  | .unrestricted => everyone
  | .restricted _ => internal
  | .inherited => internal

/-- How generated code reaches a member (`Access`). -/
inductive Access where
  | field (place : Place)
  | property (getter setter : String)
  deriving DecidableEq, Repr

/-- A selected member (`MemberDescriptor`). -/
structure MemberDescriptor where
  /-- The key under which the member is stored. -/
  name : String
  /-- The canonical text of the declared type. -/
  declaredType : String
  access : Access
  deriving DecidableEq, Repr

/-- A type with its selected members (`TypeDescriptor`). -/
structure TypeDescriptor where
  name : String
  kind : TypeKind
  accessibility : Accessibility
  nameSpace : String
  generics : Generics
  members : List MemberDescriptor
  deriving DecidableEq, Repr

namespace TypeDescriptor

/-- The keys of the selected members, in order. -/
def keys (d : TypeDescriptor) : List String := d.members.map MemberDescriptor.name

end TypeDescriptor

namespace MemberDecl

/-- How code can both read and write the member, if it can. -/
def access? (m : MemberDecl) : Option Access :=
  match m.kind with
  | .field place => some (.field place)
  | .property (some getter) (some setter) => some (.property getter setter)
  | .property _ _ => none

/-- The reason against the member, if there is one. -/
def exclusion (m : MemberDecl) : Option Exclusion := m.policy.exclusion m.access?.isSome

/-- The descriptor of a member that takes part (`select`). -/
def select (m : MemberDecl) : Option MemberDescriptor :=
  match m.exclusion, m.access? with
  | none, some access => some ⟨m.name, m.type.text, access⟩
  | _, _ => none

/-- What is reported about a member that does not take part. -/
def report (m : MemberDecl) : Option Event := m.exclusion.map (.excluded m.name)

end MemberDecl

namespace TypeDecl

/-- The selected members. -/
def selected (d : TypeDecl) : List MemberDescriptor := d.members.filterMap MemberDecl.select

/-- The descriptor of a table, and what is reported on the way (`scan`). -/
def scan (d : TypeDecl) : Option TypeDescriptor × List Event :=
  match d.kind with
  | none => (none, [.skipped d.name])
  | some kind =>
    (some {
      name := d.name
      kind
      accessibility := .ofVisibility d.visibility
      nameSpace := d.nameSpace
      generics := d.generics
      members := d.selected },
    d.members.filterMap MemberDecl.report ++
      [.scanned d.name d.nameSpace d.selected.length d.members.length])

/-- The descriptor of a table. -/
def descriptor (d : TypeDecl) : Option TypeDescriptor := d.scan.1

end TypeDecl

end KeyedRecord.Derive
