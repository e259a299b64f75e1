import KeyedRecord.Derive.Unit
import KeyedRecord.Files.Path
import KeyedRecord.Files.System

/-!
# The directory of expansions

For people to read, a unit can also be written as canonical text to a file that is named after it,
in a directory made for the purpose.  A failure to write is reported and changes nothing else.

The directory is an `ExpandDir`, with `from_env`, `path_for`, `write` and `add_source`.  Its
operations on files are `create_dir_all` and `fs::write`, of any `FileSystem`.
-/

set_option autoImplicit false

namespace KeyedRecord.Derive

open Source Files

/-- A directory into which units are written (`ExpandDir`). -/
structure ExpandDir where
  root : String
  deriving DecidableEq, Repr

/-- Why a unit was not written: what was tried with which path, and how it failed. -/
inductive DumpFailure where
  | creating (path : String) (f : Failure)
  | writing (path : String) (f : Failure)
  deriving DecidableEq, Repr

namespace DumpFailure

/-- What was tried. -/
def message : DumpFailure → String
  | creating path _ => "creating " ++ path
  | writing path _ => "writing " ++ path

/-- What was tried, and how it failed. -/
def chain : DumpFailure → String
  | creating path f => "creating " ++ path ++ ": " ++ f.message
  | writing path f => "writing " ++ path ++ ": " ++ f.message

end DumpFailure

namespace ExpandDir

/-- The directory that a setting names (`from_env`); an empty setting, as none at all, disables
writing. -/
def ofSetting : Option String → Option ExpandDir
  | none => none
  | some "" => none
  | some root => some ⟨root⟩

/-- The path of the file of a unit (`path_for`). -/
def pathFor (d : ExpandDir) (name : String) : String := Path.join d.root (name ++ ".rs")

variable {σ : Type} [FileSystem σ]

/-- Write a unit.  What was made of the directory stays if the file could not be written. -/
def write (d : ExpandDir) (fs : σ) (name : String) (unit : UnitCode) :
    Except DumpFailure String × σ :=
  match FileSystem.makeDirs d.root fs with
  | (.error f, fs) => (.error (.creating d.root f), fs)
  | (.ok (), fs) =>
    let path := d.pathFor name
    match FileSystem.write path (canonicalText unit) fs with
    | (.error f, fs) => (.error (.writing path f), fs)
    | (.ok (), fs) => (.ok path, fs)

/-- Write a unit and report how it went (`add_source`). -/
def add (d : ExpandDir) (fs : σ) (name : String) (unit : UnitCode) : σ × List Event :=
  match d.write fs name unit with
  | (.ok path, fs) => (fs, [.unitWritten path])
  | (.error f, fs) => (fs, [.dumpFailed name f.chain])

end ExpandDir

end KeyedRecord.Derive
