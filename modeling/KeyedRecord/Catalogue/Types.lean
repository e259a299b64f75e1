import KeyedRecord.Catalogue.Fields
import KeyedRecord.Url.Basic

/-!
# Sample payload types

Three types that values can hold as payloads: colours, which are compared part by part; readings,
which have a real in them, and so need not equal themselves; and bundles of dynamic values.
-/

set_option autoImplicit false

namespace KeyedRecord.Catalogue

/-- The sample types. -/
inductive TypeId where
  | colour
  | reading
  | bundle
  deriving DecidableEq

/-- The sample types, as payloads. -/
abbrev types : Registry where
  Id := TypeId
  name
    | .colour => "Colour"
    | .reading => "Reading"
    | .bundle => "Bundle"
  Data
    | .colour => Bounded .u8 × Bounded .u8 × Bounded .u8
    | .reading => String × Double
    | .bundle => Nat
  Place
    | .bundle, n => Fin n
    | .colour, _ | .reading, _ => Empty

/-- The URLs of the samples. -/
abbrev urls : UrlFormat := Url.format.settled

/-- The type of colours. -/
abbrev colourType : PayloadType types := .custom .colour

/-- The type of readings. -/
abbrev readingType : PayloadType types := .custom .reading

/-- The type of bundles. -/
abbrev bundleType : PayloadType types := .custom .bundle

/-- A colour. -/
abbrev colour (red green blue : Bounded .u8) : colourType.Carrier := ⟨(red, green, blue), nofun⟩

/-- A reading, with the name of its unit. -/
abbrev reading (name : String) (x : Double) : readingType.Carrier := ⟨(name, x), nofun⟩

/-- A bundle. -/
abbrev bundle (vs : List (Value types)) : bundleType.Carrier := ⟨vs.length, vs.get⟩

/-- Bundles are equal if they have equal values at the same places. -/
def equalBundles {n m : Nat} (x : Fin n → Value.Handed types) (y : Fin m → Value types) : Bool :=
  if h : n = m then (List.finRange n).all fun i => (x i).2 (y (i.cast h)) else false

instance : OwnEquality types where
  equal
    | .colour, x, y => decide (x.data = y.data)
    | .reading, x, y => decide (x.data.1 = y.data.1) && Binary.equal x.data.2 y.data.2
    | .bundle, x, y => equalBundles x.values y.values

instance : Defaults types urls where
  url := Url.ownMachine
  custom
    | .colour => colour (.zero .u8) (.zero .u8) (.zero .u8)
    | .reading => reading "" (.zero .double false)
    | .bundle => bundle []

end KeyedRecord.Catalogue
