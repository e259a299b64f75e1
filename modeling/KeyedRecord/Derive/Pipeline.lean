import KeyedRecord.Derive.ExpandDir

/-!
# The pipeline

From a declaration to generated code.  One type at a time: its table, its descriptor, its unit.  A
declaration that cannot be extended yields nothing, and one that is refused yields the refusal; what
was reported up to there is reported in each case.

One type is `generate`, into either of the two sinks, and the entry point of the derive is `expand`.
-/

set_option autoImplicit false

namespace KeyedRecord.Derive

open Source Files

/-- A unit with its name. -/
structure NamedUnit where
  name : String
  code : UnitCode
  deriving DecidableEq, Repr

/-- The unit of a declaration, none for one that is skipped, with what is reported on the way. -/
def unitOf (item : Item) : Except Refusal (Option NamedUnit) × List Event :=
  match TypeDecl.ofItem item with
  | .error r => (.error r, [])
  | .ok decl =>
    match decl.scan with
    | (none, events) => (.ok none, events)
    | (some d, events) =>
      match render d decl.crate with
      | .error r => (.error r, events)
      | .ok code => (.ok (some ⟨d.unitName, code⟩), events)

/-- Generate the unit of a declaration into a list of units (`generate` with a `TokenSink`). -/
def generate (item : Item) (s : UnitList) :
    Except Refusal (Option String) × UnitList × List Event :=
  match unitOf item with
  | (.error r, events) => (.error r, s, events)
  | (.ok none, events) => (.ok none, s, events)
  | (.ok (some u), events) =>
    (.ok (some u.name), s.insert u.name u.code, events ++ [.unitAdded u.name])

variable {σ : Type} [FileSystem σ]

/-- Generate the unit of a declaration into a directory (`generate` with an `ExpandDir`). -/
def generateInto (item : Item) (d : ExpandDir) (fs : σ) :
    Except Refusal (Option String) × σ × List Event :=
  match unitOf item with
  | (.error r, events) => (.error r, fs, events)
  | (.ok none, events) => (.ok none, fs, events)
  | (.ok (some u), events) =>
    let (fs, written) := d.add fs u.name u.code
    (.ok (some u.name), fs, events ++ written)

/-- The whole expansion of a declaration (`expand`): its unit in a scope of its own, empty if it is
skipped.  Where `setting` names a directory, the unit is written there too. -/
def expand (item : Item) (setting : Option String) (fs : σ) :
    Except Refusal (List Token) × σ × List Event :=
  match generate item .empty with
  | (.error r, _, events) => (.error r, fs, events)
  | (.ok none, s, events) => (.ok s.finish, fs, events)
  | (.ok (some name), s, events) =>
    match ExpandDir.ofSetting setting, s.get? name with
    | some d, some unit =>
      let (fs, written) := d.add fs name unit
      (.ok s.finish, fs, events ++ written)
    | _, _ => (.ok s.finish, fs, events)

end KeyedRecord.Derive
