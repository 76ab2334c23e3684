import CampusRules.Json.Basic
import CampusRules.Text.Split

/-!
# Paths into a context

A path is a text whose segments are separated by points. A segment names a
member of an object or, written in decimal, an item of an array; on any other
value it leads nowhere. There is always at least one segment: the empty path is
the one empty segment.

The rules that look values up say so with a path; the value that a path does not
lead to is *missing*, which is different from `null`.
-/

namespace CampusRules.Path

/-- The segments of a path. -/
def segments (path : List Char) : List (List Char) := Text.split '.' path

/-- The position that a segment means inside an array: decimal digits behind an
optional plus sign, below `2 ^ 64`. -/
def position? (segment : List Char) : Option Nat :=
  let digits := match segment with
    | '+' :: rest => rest
    | other => other
  if digits ≠ [] ∧ digits.all isDigit ∧ numeral digits < UInt64.size then some (numeral digits)
  else none

/-- One step into a value. -/
def step? (current : Json) (segment : List Char) : Option Json :=
  match current with
  | .object members => members.lookup (String.ofList segment)
  | .array items => (position? segment).bind (items[·]?)
  | _ => none

/-- Follows segments from a value on. -/
def follow? (current : Json) (segments : List (List Char)) : Option Json :=
  segments.foldlM step? current

/-- The value that a path leads to. -/
def get? (path : String) (context : Json) : Option Json :=
  follow? context (segments path.toList)

/-- Following two lists of segments in a row is following the second from where
the first leads. -/
theorem follow?_append (current : Json) (first second : List (List Char)) :
    follow? current (first ++ second) = (follow? current first).bind (follow? · second) := by
  simp [follow?, List.foldlM_append]

end CampusRules.Path
