import KeyedRecord.Text.Split

/-!
# Paths of files

A path is text.  Slashes part it into components; empty components and a dot after the first
component say nothing and are left out, so two texts are the same path exactly if their components
agree.

These are `Path::components` and `Path::join`.
-/

set_option autoImplicit false

namespace KeyedRecord.Files

/-- One component of a path. -/
inductive Component where
  /-- The slash that an absolute path starts with. -/
  | root
  /-- The dot that a relative path starts with. -/
  | here
  | parent
  | name (s : String)
  deriving DecidableEq, Repr

namespace Path

/-- The stretches of a text between slashes. -/
def pieces (path : String) : List String :=
  (Text.stretches (· == '/') path.toList).map String.ofList

/-- The path starts at the root. -/
def isAbsolute (path : String) : Bool :=
  match path.toList with
  | '/' :: _ => true
  | _ => false

/-- The component of a stretch that is not the first. -/
def laterComponent (piece : String) : Option Component :=
  if piece = "" ∨ piece = "." then none
  else if piece = ".." then some .parent
  else some (.name piece)

/-- The components of a path. -/
def components (path : String) : List Component :=
  match pieces path with
  | [] => []
  | first :: rest =>
    let tail := rest.filterMap laterComponent
    if isAbsolute path then .root :: tail
    else if first = "." then .here :: tail
    else (laterComponent first).toList ++ tail

/-- The path that an entry of a directory has.  An absolute entry stands for itself. -/
def join (dir entry : String) : String :=
  if isAbsolute entry then entry
  else if dir = "" then entry
  else if dir.toList.getLast? = some '/' then dir ++ entry
  else dir ++ "/" ++ entry

/-- The components of the directory that a path stands in; none for the empty path and the root. -/
def parent? (cs : List Component) : Option (List Component) :=
  match cs.getLast? with
  | none => none
  | some .root => none
  | some _ => some cs.dropLast

end Path

end KeyedRecord.Files
