import KeyedRecord.Text.Split
import KeyedRecord.Url.Percent

/-!
# The segments of a path

A path is read from left to right.  One dot stays where it is and two dots take the last segment
back; a segment that names a drive is never taken back.  Where a dot segment ends the path, the path
ends in a slash.
-/

set_option autoImplicit false

namespace KeyedRecord.Url

/-- A stretch of a path between slashes. -/
abbrev Segment := List Char

namespace Segment

/-- The spellings of a dot. -/
def dots : List (List Char) := [['.'], ['%', '2', 'e'], ['%', '2', 'E']]

/-- One dot. -/
def isSingleDot (s : Segment) : Bool := dots.contains s

/-- Two dots. -/
def isDoubleDot (s : Segment) : Bool := dots.any fun a => dots.any fun b => s == a ++ b

/-- A letter of ASCII. -/
def isLetter (c : Char) : Bool :=
  decide ('a' ≤ c ∧ c ≤ 'z') || decide ('A' ≤ c ∧ c ≤ 'Z')

/-- A letter with a colon or a bar names a drive. -/
def isDrive : Segment → Bool
  | [letter, mark] => isLetter letter && (mark == ':' || mark == '|')
  | _ => false

/-- The name of a drive has a colon. -/
def withColon : Segment → Segment
  | letter :: _ => [letter, ':']
  | [] => []

end Segment

/-- What a path is read for. -/
inductive PathStyle where
  | file
  | other
  deriving DecidableEq, Repr

namespace PathStyle

open Segment

/-- The segments with one more.  A drive that comes first in the path of a file has a colon. -/
def keep (style : PathStyle) (kept : List Segment) (s : Segment) : List Segment :=
  if style = .file ∧ kept = [] ∧ isDrive s then [s.withColon] else kept ++ [s]

end PathStyle

namespace Segment

/-- The segments without the last, which stays if it names a drive. -/
def takeBack (kept : List Segment) : List Segment :=
  match kept.getLast? with
  | none => []
  | some s => if isDrive s then kept else kept.dropLast

/-- The segments that are left when every dot segment has had its effect on those before it. -/
def resolve (style : PathStyle) : List Segment → List Segment → List Segment
  | kept, [] => kept
  | kept, [s] =>
    if isDoubleDot s then takeBack kept ++ [[]]
    else if isSingleDot s then kept ++ [[]]
    else style.keep kept s
  | kept, s :: t :: r =>
    if isDoubleDot s then resolve style (takeBack kept) (t :: r)
    else if isSingleDot s then resolve style kept (t :: r)
    else resolve style (style.keep kept s) (t :: r)

/-- The segments of a text behind the slash that a path starts with. -/
def read (style : PathStyle) (slash : Char → Bool) (cs : List Char) : List Segment :=
  resolve style [] ((Text.stretches slash cs).map (encode inPathSet))

/-- The path of a file has no empty segments in front. -/
def withoutEmptyFront (ss : List Segment) : List Segment :=
  match ss.dropWhile List.isEmpty with
  | [] => [[]]
  | rest => rest

/-- The path starts with a drive. -/
def startsWithDrive : List Segment → Bool
  | s :: _ => isDrive s
  | [] => false

end Segment

end KeyedRecord.Url
