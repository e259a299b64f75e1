import KeyedRecord.Files.Path
import KeyedRecord.Files.System

/-!
# A tree of files

Files and directories below a working directory.  An entry is found by the names on its way; the
working directory itself has the empty way.  The operations fail as a file system does.  Making one
directory and writing a file change nothing when they fail; making a row of directories keeps those
that it made before one could not be made.

A path is followed component by component: a dot stays, two dots go up, and everything that is gone
through has to be a directory.  No way leads above the working directory.
-/

set_option autoImplicit false

namespace KeyedRecord.Files

/-- What stands at the end of a way. -/
inductive Entry where
  | file (text : String)
  | directory
  deriving DecidableEq, Repr

/-- The names on the way from the working directory to an entry. -/
abbrev Way := List String

/-- The entries below a working directory, by their ways. -/
structure Tree where
  entries : List (Way × Entry)
  deriving DecidableEq, Repr

namespace Tree

/-- An empty working directory. -/
def empty : Tree := ⟨[]⟩

/-- What stands at the end of a way. -/
def find? (t : Tree) (way : Way) : Option Entry :=
  if way = [] then some .directory else t.entries.lookup way

/-- Put an entry at the end of a way. -/
def put (t : Tree) (way : Way) (e : Entry) : Tree :=
  ⟨(way, e) :: t.entries.filter fun (w, _) => w != way⟩

/-- A longest name, and a longest path, in bytes. -/
def maxName : Nat := 255

/-- A longest path, in bytes. -/
def maxPath : Nat := 4095

/-- Follow components from a directory. -/
def follow (t : Tree) : Way → List Component → Except Failure Way
  | way, [] => .ok way
  | way, c :: cs =>
    match t.find? way with
    | none => .error .notFound
    | some (.file _) => .error .notDirectory
    | some .directory =>
      match c with
      | .root => follow t [] cs
      | .here => follow t way cs
      | .parent => follow t way.dropLast cs
      | .name s =>
        if maxName < s.utf8ByteSize then .error .nameTooLong
        else follow t (way ++ [s]) cs

/-- The way of a list of components.  Its last name need not exist. -/
def resolve (t : Tree) (cs : List Component) : Except Failure Way := follow t [] cs

/-- The components form a path that a system call takes. -/
def checkPath (cs : List Component) (bytes : Nat) : Except Failure Unit :=
  if cs.any fun | .name s => s.toList.contains '\x00' | _ => false then .error .nulInName
  else if cs.isEmpty then .error .notFound
  else if maxPath < bytes then .error .nameTooLong
  else .ok ()

/-- The length of a path in bytes, with one slash between components. -/
def byteLength : List Component → Nat
  | [] => 0
  | .root :: cs => 1 + byteLength cs
  | .here :: cs => 2 + byteLength cs
  | .parent :: cs => 3 + byteLength cs
  | .name s :: cs => s.utf8ByteSize + 1 + byteLength cs

/-- Make one directory. -/
def makeDir (t : Tree) (cs : List Component) : Except Failure Tree := do
  checkPath cs (byteLength cs - 1)
  let way ← t.resolve cs
  match t.find? way with
  | some _ => throw .alreadyExists
  | none => return t.put way .directory

/-- The path leads to a directory. -/
def isDir (t : Tree) (cs : List Component) : Bool :=
  match t.resolve cs with
  | .ok way => t.find? way == some .directory
  | .error _ => false

/-- Make the directories of the list, from the outermost, where each may be there already. -/
def makeEach (t : Tree) : List (List Component) → Except Failure Unit × Tree
  | [] => (.ok (), t)
  | cs :: rest =>
    match t.makeDir cs with
    | .ok t' => makeEach t' rest
    | .error e =>
      if e = .alreadyExists ∧ t.isDir cs then makeEach t rest else (.error e, t)

/-- Go up from a directory to the first that is there or can be made, and then down again.  `below`
holds the directories passed on the way up. -/
def makeUp (t : Tree) :
    Nat → List (List Component) → List Component → Except Failure Unit × Tree
  | 0, below, _ => makeEach t below
  | fuel + 1, below, cs =>
    match Path.parent? cs with
    | none => makeEach t below
    | some up =>
      match t.makeDir cs with
      | .ok t' => makeEach t' below
      | .error e =>
        if e = .notFound then makeUp t fuel (cs :: below) up
        else if e = .alreadyExists ∧ t.isDir cs then makeEach t below
        else (.error e, t)

/-- Make a directory with all directories on its way. -/
def makeDirs (t : Tree) (path : String) : Except Failure Unit × Tree :=
  let cs := Path.components path
  makeUp t (cs.length + 1) [] cs

/-- Write a file, in place of what it held. -/
def write (t : Tree) (path text : String) : Except Failure Tree := do
  let cs := Path.components path
  checkPath cs path.utf8ByteSize
  let way ← t.resolve cs
  match t.find? way with
  | some .directory => throw .isDirectory
  | _ => return t.put way (.file text)

/-- The order of two ways: name by name, and a directory's entries in place of it. -/
def wayLe : Way → Way → Bool
  | [], _ => true
  | _ :: _, [] => false
  | a :: as, b :: bs => if a = b then wayLe as bs else decide (a < b)

/-- All files with their texts, in order. -/
def files (t : Tree) : List (String × String) :=
  let found := t.entries.filterMap fun
    | (way, .file text) => some (way, text)
    | (_, .directory) => none
  (found.mergeSort fun a b => wayLe a.1 b.1).map fun (way, text) => ("/".intercalate way, text)

instance : FileSystem Tree where
  makeDirs path t := t.makeDirs path
  write path text t :=
    match t.write path text with
    | .ok t' => (.ok (), t')
    | .error f => (.error f, t)

end Tree

end KeyedRecord.Files
