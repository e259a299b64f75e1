import KeyedRecord.Catalogue.Fields

/-!
# Record types with properties

Sample record types with members that are read and written through a getter and a setter.
-/

set_option autoImplicit false

namespace KeyedRecord.Catalogue

open Record

/-! ## A property over a public field -/

namespace TestClass

/-- The fields of a record with a property over a public field. -/
abbrev fields (R : Registry) (U : UrlFormat) : List (Record.Field (MemberType R U)) :=
  [⟨"a", .int .i32, published⟩, ⟨"B", .double, published⟩, ⟨"C", .character, ignore published⟩,
    ⟨"_d", .string, include_ hidden⟩, ⟨"_e", .boolean, hidden⟩]

variable {R : Registry} {U : UrlFormat}

/-- The number that the property `A` and the field `a` share. -/
abbrev a : Fin (fields R U).length := (0 : Fin 5)

/-- The number nearest to the ratio of a circle's circumference to its diameter. -/
def pi : Double := .ofBits .double 0x400921FB54442D18

/-- What the fields start with. -/
def start [Defaults R U] : State (fields R U) :=
  initialState (fields R U)
    |>.set a (.wrap .i32 1)
    |>.set (1 : Fin 5) pi
    |>.set (2 : Fin 5) 'a'
    |>.set (3 : Fin 5) "Hello World"

end TestClass

variable {R : Registry} {U : UrlFormat} [Defaults R U]

/-- One state behind a property and a field. -/
def testClass : Sample R U where
  schema := {
    fields := TestClass.fields R U
    properties := [⟨"A", .int .i32, published, some fun s => s.get TestClass.a,
      some fun x s => s.set TestClass.a x⟩]
    keys_nodup := by simp }
  start := TestClass.start

/-! ## A property over an included field -/

namespace Order

/-- The fields of an order. -/
abbrev fields (R : Registry) (U : UrlFormat) : List (Record.Field (MemberType R U)) :=
  [⟨"id", .int .u32, published⟩, ⟨"cents", .int .u32, include_ hidden⟩]

variable {R : Registry} {U : UrlFormat}

/-- The sum of an order, in hundredths. -/
abbrev cents : Fin (fields R U).length := (1 : Fin 2)

/-- The whole units of the sum. -/
def total (s : State (fields R U)) : Bounded .u32 :=
  let n : Bounded .u32 := s.get cents
  .wrap .u32 (n.val / 100)

/-- A sum of whole units. -/
def setTotal (total : Bounded .u32) (s : State (fields R U)) : State (fields R U) :=
  s.set cents (Bounded.wrap .u32 (total.val * 100))

end Order

/-- A property that is coarser than the field it shares its state with. -/
def order : Sample R U where
  schema := {
    fields := Order.fields R U
    properties := [⟨"total", .int .u32, published, some Order.total, some Order.setTotal⟩]
    keys_nodup := by simp }
  start := initialState (Order.fields R U)

end KeyedRecord.Catalogue
