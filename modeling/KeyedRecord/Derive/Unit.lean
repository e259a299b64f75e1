import KeyedRecord.Derive.Render
import KeyedRecord.Table

/-!
# Units and where they go

A unit is generated code under a name.  The name says the namespace and the type, and no other pair
has it.  Units are collected in the order in which their names first came; a unit that comes under a
name again takes the place of the earlier one.

The name is `unit_name`, and the collection is `TokenSink` with `add_source`, `names`, `get` and
`finish`.
-/

set_option autoImplicit false

namespace KeyedRecord.Derive

open Source

/-- The name of the unit of a type (`unit_name`). -/
def unitName (nameSpace typeName : String) : String :=
  "objdict." ++ nameSpace ++ "." ++ typeName ++ ".g"

/-- The name of the unit of a descriptor. -/
def TypeDescriptor.unitName (d : TypeDescriptor) : String :=
  KeyedRecord.Derive.unitName d.nameSpace d.name

/-- Generated code. -/
abbrev UnitCode := List Token

/-- Units by name (`TokenSink`). -/
abbrev UnitList := Table UnitCode

namespace UnitList

/-- A unit in a scope of its own. -/
def enclosed (unit : UnitCode) : List Token :=
  Code.w "const" ++ Code.w "_" ++ Code.p ":" ++ Code.paren [] ++ Code.p "=" ++ Code.brace unit ++
    Code.p ";"

/-- All units in order, each in a scope of its own (`finish`). -/
def finish (s : UnitList) : List Token := s.entries.flatMap fun (_, unit) => enclosed unit

end UnitList

end KeyedRecord.Derive
