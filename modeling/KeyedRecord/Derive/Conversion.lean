import KeyedRecord.Derive.Descriptor

/-!
# The generated conversion

The code generated for a type is a fixed frame around three lists of statements.  One inserts every
selected member into a fresh dictionary.  The other two make up the way back: first every member is
cast out of the dictionary into a local of its own, and only then are the locals written, so that a
cast that fails leaves the value as it was.

The statements are data here; `Render` prints them.

A slot is a `Slot`, made by `Slot::new`.  That the printed statements are read back as these is
`render_converts`.
-/

set_option autoImplicit false

namespace KeyedRecord.Derive

open Source

/-- A selected member with the type that its stored value is cast to (`Slot`). -/
structure Slot where
  key : String
  type : Phrase
  access : Access
  deriving DecidableEq, Repr

namespace Slot

/-- The slot of a selected member (`Slot::new`).  Its type is read back from its text. -/
def ofMember (m : MemberDescriptor) : Except Problem Slot := do
  return ⟨m.name, ← readText readType m.declaredType, m.access⟩

end Slot

/-- A statement of generated code.  Locals are numbered. -/
inductive Statement where
  /-- Put the value of a member under a key. -/
  | insert (key : String) (source : Access)
  /-- Cast what stands under a key into a local, or fail. -/
  | cast (slot : Nat) (type : Phrase) (key : String)
  /-- Write a local to a member. -/
  | write (target : Access) (slot : Nat)
  deriving DecidableEq, Repr

/-- The generated code of a type, less its frame. -/
structure Conversion where
  keys : List String
  inserts : List Statement
  casts : List Statement
  writes : List Statement
  deriving DecidableEq, Repr

/-- A list with the numbers of its places, from `n` on. -/
def numbered {α : Type} : Nat → List α → List (Nat × α)
  | _, [] => []
  | n, a :: as => (n, a) :: numbered (n + 1) as

namespace Conversion

/-- The code for a list of slots: slot and local of one number belong together. -/
def ofSlots (slots : List Slot) : Conversion where
  keys := slots.map Slot.key
  inserts := slots.map fun s => .insert s.key s.access
  casts := (numbered 0 slots).map fun (i, s) => .cast i s.type s.key
  writes := (numbered 0 slots).map fun (i, s) => .write s.access i

/-- The code for a descriptor; it fails on the first type whose text is none. -/
def ofDescriptor (d : TypeDescriptor) : Except Problem Conversion := do
  return ofSlots (← d.members.mapM Slot.ofMember)

/-- The body that fills a dictionary. -/
def toDict (c : Conversion) : List Statement := c.inserts

/-- The body that reads a dictionary: every cast comes before the first write. -/
def fromDict (c : Conversion) : List Statement := c.casts ++ c.writes

end Conversion

end KeyedRecord.Derive
