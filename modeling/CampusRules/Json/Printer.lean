import CampusRules.Json.Basic

/-!
# Writing JSON

Two printers for the same values: `compact` writes no blanks, `pretty` puts each
item on a line of its own, indented by two spaces for each level, and writes
empty containers closed up. Members are written in the order of the list, which
is key order for free-form values and declaration order for documents with a
fixed shape.

In strings, quotes, backslashes and control characters are escaped; everything
else stands for itself.
-/

namespace CampusRules.Json

/-- A lower-case hexadecimal digit. -/
def hexDigit (value : Nat) : Char :=
  if value < 10 then Char.ofNat ('0'.toNat + value) else Char.ofNat ('a'.toNat + (value - 10))

/-- A character inside a quoted string. -/
def escape (character : Char) : List Char :=
  match character with
  | '"' => ['\\', '"']
  | '\\' => ['\\', '\\']
  | '\n' => ['\\', 'n']
  | '\r' => ['\\', 'r']
  | '\t' => ['\\', 't']
  | '\x08' => ['\\', 'b']
  | '\x0c' => ['\\', 'f']
  | other =>
    if other.toNat < 0x20 then
      ['\\', 'u', '0', '0', hexDigit (other.toNat / 16), hexDigit (other.toNat % 16)]
    else [other]

/-- A string in quotes. -/
def quote (text : String) : List Char := '"' :: text.toList.flatMap escape ++ ['"']

mutual

/-- A value on one line without blanks. -/
def compact : Json → List Char
  | .null => "null".toList
  | .bool true => "true".toList
  | .bool false => "false".toList
  | .number value => value.text
  | .string value => quote value
  | .array [] => ['[', ']']
  | .array (first :: rest) => '[' :: first.compact ++ compactItems rest ++ [']']
  | .object [] => ['{', '}']
  | .object ((key, value) :: rest) =>
    '{' :: quote key ++ ':' :: value.compact ++ compactMembers rest ++ ['}']
termination_by structural value => value

/-- The items after the first, each behind its comma. -/
def compactItems : List Json → List Char
  | [] => []
  | item :: items => ',' :: item.compact ++ compactItems items
termination_by structural items => items

/-- The members after the first, each behind its comma. -/
def compactMembers : List (String × Json) → List Char
  | [] => []
  | (key, value) :: members =>
    ',' :: quote key ++ ':' :: value.compact ++ compactMembers members
termination_by structural members => members

end

/-- A line break and the indentation of a level. -/
def lineBreak (level : Nat) : List Char := '\n' :: List.replicate (2 * level) ' '

mutual

/-- A value over several lines, its first line starting at the given level. -/
def pretty (level : Nat) : Json → List Char
  | .null => "null".toList
  | .bool true => "true".toList
  | .bool false => "false".toList
  | .number value => value.text
  | .string value => quote value
  | .array [] => ['[', ']']
  | .array (first :: rest) =>
    '[' :: lineBreak (level + 1) ++ first.pretty (level + 1) ++
      prettyItems (level + 1) rest ++ lineBreak level ++ [']']
  | .object [] => ['{', '}']
  | .object ((key, value) :: rest) =>
    '{' :: lineBreak (level + 1) ++ quote key ++ ':' :: ' ' :: value.pretty (level + 1) ++
      prettyMembers (level + 1) rest ++ lineBreak level ++ ['}']
termination_by structural value => value

/-- The items after the first, each on a line of its own. -/
def prettyItems (level : Nat) : List Json → List Char
  | [] => []
  | item :: items => ',' :: lineBreak level ++ item.pretty level ++ prettyItems level items
termination_by structural items => items

/-- The members after the first, each on a line of its own. -/
def prettyMembers (level : Nat) : List (String × Json) → List Char
  | [] => []
  | (key, value) :: members =>
    ',' :: lineBreak level ++ quote key ++ ':' :: ' ' :: value.pretty level ++
      prettyMembers level members
termination_by structural members => members

end

/-- The compact text of a value. -/
def compactText (value : Json) : String := String.ofList value.compact

/-- The text of a value over several lines. -/
def prettyText (value : Json) : String := String.ofList (value.pretty 0)

end CampusRules.Json
