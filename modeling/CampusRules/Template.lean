import CampusRules.Coercion

/-!
# Templates

A token is a path between double braces, `{{` and `}}`, not empty and without a
closing brace in it. `scan` cuts a template into literal characters and tokens,
taking a token wherever one begins and going on behind it; what is inside a token
is not scanned again.

A token whose trimmed path leads to a value is replaced by the text of that
value; any other token stays as it is. Of a nested value the string leaves are
interpolated, and nothing else changes.
-/

namespace CampusRules.Template

/-- A piece of a template. -/
inductive Piece where
  | literal (character : Char)
  | token (inner : List Char)
  deriving DecidableEq, Repr

/-- What stands between the braces of the token that a text begins with. -/
def tokenAt? : List Char → Option (List Char)
  | '{' :: '{' :: rest =>
    let inner := rest.takeWhile (· != '}')
    match inner, rest.dropWhile (· != '}') with
    | [], _ => none
    | _, '}' :: '}' :: _ => some inner
    | _, _ => none
  | _ => none

/-- Cuts a text into pieces. `covered` counts the characters at its start that
belong to the last token. -/
def scan : (covered : Nat) → List Char → List Piece
  | _, [] => []
  | covered + 1, _ :: rest => scan covered rest
  | 0, character :: rest =>
    match tokenAt? (character :: rest) with
    | some inner => .token inner :: scan (inner.length + 3) rest
    | none => .literal character :: scan 0 rest

/-- The pieces of a template. -/
def pieces (template : List Char) : List Piece := scan 0 template

/-- The text of a piece as it stands in the template. -/
def Piece.source : Piece → List Char
  | literal character => [character]
  | token inner => '{' :: '{' :: inner ++ ['}', '}']

/-- The path of a token: what is between its braces, without blanks around it. -/
def tokenPath (inner : List Char) : String := String.ofList (Text.trim inner)

/-- The text that a piece contributes to the result. -/
def Piece.render (context : Json) : Piece → List Char
  | literal character => [character]
  | token inner =>
    match Path.get? (tokenPath inner) context with
    | some value => value.text
    | none => (token inner).source

/-- A template with its resolvable tokens replaced. -/
def interpolateChars (template : List Char) (context : Json) : List Char :=
  (pieces template).flatMap (Piece.render context)

/-- A template text with its resolvable tokens replaced. -/
def interpolateText (template : String) (context : Json) : String :=
  String.ofList (interpolateChars template.toList context)

/-- A string interpolated; any other value as it is. -/
def interpolate (value : Json) (context : Json) : Json :=
  match value with
  | .string template => .string (interpolateText template context)
  | other => other

mutual

/-- A value with every string in it interpolated, at any depth. -/
def interpolateNested (context : Json) : Json → Json
  | .string template => .string (interpolateText template context)
  | .array items => .array (interpolateItems context items)
  | .object members => .object (interpolateMembers context members)
  | other => other
termination_by structural value => value

/-- A list of values, each with its strings interpolated. -/
def interpolateItems (context : Json) : List Json → List Json
  | [] => []
  | item :: items => interpolateNested context item :: interpolateItems context items
termination_by structural items => items

/-- A list of members, each value with its strings interpolated; keys stay. -/
def interpolateMembers (context : Json) : List (String × Json) → List (String × Json)
  | [] => []
  | (key, value) :: members =>
    (key, interpolateNested context value) :: interpolateMembers context members
termination_by structural members => members

end

/-- Leading characters that a token covers are passed over. -/
theorem scan_covered (covered : Nat) (text : List Char) :
    scan covered text = scan 0 (text.drop covered) := by
  induction covered generalizing text with
  | zero => simp
  | succ covered inductionHypothesis =>
    cases text with
    | nil => simp [scan]
    | cons character rest => simp [scan, inductionHypothesis rest]

end CampusRules.Template
