import KeyedRecord.Url.Host
import KeyedRecord.Url.Segments

/-!
# Locators

A locator is a URL taken apart.  Its text follows the parts in order; a text that has a scheme and
no fault is read to a locator, always without a base.

Six schemes are special.  They have a host, the path of a special scheme is never empty, and a
backslash counts as a slash.  The scheme `file` is special too, but may have no host and has neither
user nor number.  For any other scheme a text that starts with no slash is kept as it is.
-/

set_option autoImplicit false

namespace KeyedRecord.Url

/-! ## Parts -/

/-- How a scheme treats what follows it. -/
inductive SchemeKind where
  | file
  /-- A special scheme with the number that goes without saying behind its hosts. -/
  | special (usual : Nat)
  | plain
  deriving DecidableEq, Repr

namespace SchemeKind

/-- The special schemes. -/
def table : List (String × SchemeKind) :=
  [("file", file), ("http", special 80), ("ws", special 80), ("https", special 443),
    ("wss", special 443), ("ftp", special 21)]

/-- The kind of a scheme. -/
def ofName (name : List Char) : SchemeKind :=
  (table.lookup (String.ofList name)).getD plain

/-- Every kind but the plain one is special. -/
def isSpecial (k : SchemeKind) : Bool := k != plain

/-- What counts as a slash. -/
def isSlash (k : SchemeKind) (c : Char) : Bool := c == '/' || (k.isSpecial && c == '\\')

/-- The number that goes without saying behind a host. -/
def usualNumber? : SchemeKind → Option Nat
  | special usual => some usual
  | _ => none

end SchemeKind

/-- A user's name and password, as they are written. -/
structure Credentials where
  name : List Char
  password : List Char
  deriving DecidableEq, Repr

/-- What stands behind the double slash. -/
structure Authority where
  user : Credentials
  host : Option Host
  portNumber : Option Nat
  deriving DecidableEq, Repr

/-- What stands behind the authority. -/
inductive Path where
  | kept (text : List Char)
  | rooted (segments : List Segment)
  deriving DecidableEq, Repr

/-- A URL by its parts. -/
structure Locator where
  scheme : List Char
  authority : Option Authority
  path : Path
  query : Option (List Char)
  fragment : Option (List Char)
  deriving DecidableEq, Repr

/-! ## Text -/

namespace Credentials

/-- Nobody. -/
def none : Credentials := ⟨[], []⟩

/-- The name, a password behind a colon, and the sign before the host. -/
def text (u : Credentials) : List Char :=
  let password := if u.password = [] then [] else ':' :: u.password
  if u.name = [] ∧ u.password = [] then [] else u.name ++ password ++ ['@']

end Credentials

namespace Authority

/-- An authority that names nothing. -/
def empty : Authority := ⟨.none, none, none⟩

/-- The text behind the double slash. -/
def text (a : Authority) : List Char :=
  a.user.text ++ (a.host.elim [] Host.text) ++ (a.portNumber.elim [] fun n => ':' :: decimal n)

end Authority

namespace Path

/-- The text of a path; every segment has its slash in front. -/
def text : Path → List Char
  | kept t => t
  | rooted segments => segments.flatMap ('/' :: ·)

end Path

namespace Locator

/-- A path with two slashes in front and no authority before it would read as an authority, and has
a dot between scheme and path. -/
def guard (authority : Option Authority) (path : List Char) : List Char :=
  match authority, path with
  | none, '/' :: '/' :: _ => ['/', '.']
  | _, _ => []

/-- The text of a locator. -/
def text (l : Locator) : List Char :=
  l.scheme ++ ':' :: (l.authority.elim [] fun a => '/' :: '/' :: a.text)
    ++ guard l.authority l.path.text ++ l.path.text
    ++ (l.query.elim [] ('?' :: ·)) ++ (l.fragment.elim [] ('#' :: ·))

end Locator

/-! ## Reading -/

/-- The part before the first character of a kind, and what follows it if there is one. -/
def cutAt (c : Char) (cs : List Char) : List Char × Option (List Char) :=
  match cs.dropWhile (· != c) with
  | [] => (cs, none)
  | _ :: rest => (cs.takeWhile (· != c), some rest)

/-- The text without blanks and controls around it, and without tabs and line ends in it. -/
def cleaned (cs : List Char) : List Char :=
  let isBlank (c : Char) := decide (c.toNat ≤ 0x20)
  let trimmed := ((cs.dropWhile isBlank).reverse.dropWhile isBlank).reverse
  trimmed.filter fun c => !(['\t', '\n', '\r'].contains c)

/-- A character of a scheme behind its first. -/
def inScheme (c : Char) : Bool := Segment.isLetter c || isDigit c || ['+', '-', '.'].contains c

/-- The scheme, in lower case, and what follows its colon. -/
def scheme? (cs : List Char) : Option (List Char × List Char) :=
  match cs.takeWhile inScheme, cs.dropWhile inScheme with
  | c :: name, ':' :: rest =>
    if Segment.isLetter c then some ((c :: name).map Char.toLower, rest) else none
  | _, _ => none

namespace Credentials

/-- A name, and a password behind the first colon. -/
def ofText (cs : List Char) : Credentials :=
  let (name, password) := cutAt ':' cs
  ⟨encode inUserSet name, encode inUserSet (password.getD [])⟩

end Credentials

/-- What stands before the last `@`, if there is one, and what stands behind it. -/
def cutUser (cs : List Char) : Option (List Char) × List Char :=
  let behind := (cs.reverse.takeWhile (· != '@')).reverse
  match (cs.take (cs.length - behind.length)).reverse with
  | _ :: user => (some user.reverse, behind)
  | [] => (none, behind)

/-- The host, up to a colon outside of brackets, and the rest. -/
def spanHost : Bool → List Char → List Char × List Char
  | _, [] => ([], [])
  | inBrackets, c :: r =>
    if c == ':' && !inBrackets then ([], c :: r)
    else
      let inside := if c == '[' then true else if c == ']' then false else inBrackets
      let (host, rest) := spanHost inside r
      (c :: host, rest)

/-- The number behind a host, and what follows its digits, which nothing does or a backslash. -/
def portNumber? (digits : List Char) : Option (Option Nat × List Char) := do
  let rest := digits.dropWhile isDigit
  let n ← baseNumber? 10 (digits.takeWhile isDigit)
  let number := if digits.takeWhile isDigit = [] then none else some n
  match rest with
  | [] => if n < 65536 then some (number, []) else none
  | '\\' :: _ => if n < 65536 then some (number, rest) else none
  | _ => none

/-- The authority of a scheme, and what of its text belongs to the path.  `isLast` says that nothing
follows the text. -/
def authority? (kind : SchemeKind) (isLast : Bool) (cs : List Char) :
    Option (Authority × List Char) := do
  let (user, behind) := cutUser cs
  if user = some [] ∧ behind = [] ∧ !isLast then none else
  let user := Credentials.ofText (user.getD [])
  let (name, rest) := spanHost false behind
  let host ←
    if kind.isSpecial then some <$> Host.special? name
    else if name = [] then
      if user.text = [] ∧ rest = [] then some none else none
    else some <$> Host.plain? name
  match rest with
  | [] => return (⟨user, host, none⟩, [])
  | _ :: digits =>
    let (number, rest) ← portNumber? digits
    return (⟨user, host, if number = kind.usualNumber? then none else number⟩, rest)

/-- The path behind an authority. -/
def pathBehindAuthority (kind : SchemeKind) (cs : List Char) : Path :=
  match cs with
  | [] => .rooted (if kind.isSpecial then [[]] else [])
  | c :: r => .rooted (Segment.read .other kind.isSlash (if kind.isSlash c then r else c :: r))

/-- The authority, and the path behind it. -/
def hierarchy? (kind : SchemeKind) (isLast : Bool) (cs : List Char) :
    Option (Option Authority × Path) := do
  let isEnd (c : Char) := !kind.isSlash c
  let rest := cs.dropWhile isEnd
  let (authority, left) ← authority? kind (isLast && rest.isEmpty) (cs.takeWhile isEnd)
  return (some authority, pathBehindAuthority kind (left ++ rest))

/-- The path of a file behind the slash it starts with, in an authority with the given host.  A
drive that comes first takes the place of the host. -/
def filePath (host : Option Host) (cs : List Char) : Option Authority × Path :=
  let segments := Segment.read .file (SchemeKind.isSlash .file) cs
  let host := if Segment.startsWithDrive segments then none else host
  (some { Authority.empty with host }, .rooted (Segment.withoutEmptyFront segments))

/-- The host that stands for the own machine; a file there has no host. -/
def Host.localHost : Host := .domain "localhost".toList

/-- The host and the path of a file behind a double slash. -/
def fileHost? (cs : List Char) : Option (Option Authority × Path) := do
  let isName (c : Char) := !SchemeKind.isSlash .file c
  let name := cs.takeWhile isName
  let rest := cs.dropWhile isName
  if Segment.isDrive name then return filePath none cs
  else if name = [] then return filePath none rest
  else
    let host ← Host.special? name
    if host = Host.localHost then return filePath none rest
    else return filePath (some host) (rest.drop 1)

/-- What stands between scheme and query. -/
def body? (kind : SchemeKind) (isLast : Bool) (cs : List Char) : Option (Option Authority × Path) :=
  match kind with
  | .special _ => hierarchy? kind isLast (cs.dropWhile kind.isSlash)
  | .file =>
    match cs with
    | a :: b :: r =>
      if kind.isSlash a && kind.isSlash b then fileHost? r
      else if kind.isSlash a then some (filePath none (b :: r))
      else some (filePath none cs)
    | [a] => some (filePath none (if kind.isSlash a then [] else [a]))
    | [] => some (filePath none [])
  | .plain =>
    match cs with
    | '/' :: '/' :: r => hierarchy? kind isLast r
    | '/' :: r => some (none, .rooted (Segment.read .other kind.isSlash r))
    | _ => some (none, .kept (encode isControl cs))

namespace Locator

/-- The locator that a text stands for. -/
def read? (cs : List Char) : Option Locator := do
  let (scheme, rest) ← scheme? (cleaned cs)
  let kind := SchemeKind.ofName scheme
  let (rest, fragment) := cutAt '#' rest
  let (body, query) := cutAt '?' rest
  let (authority, path) ← body? kind (query.isNone && fragment.isNone) body
  let querySet := if kind.isSpecial then inSpecialQuerySet else inQuerySet
  return {
    scheme
    authority
    path
    query := query.map (encode querySet)
    fragment := fragment.map (encode inFragmentSet) }

end Locator

end KeyedRecord.Url
