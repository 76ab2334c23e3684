import CampusRules.Json.Printer
import CampusRules.Text.Printable

/-!
# Diagnostic text

How values appear in log entries. A value names its kind in front of its content,
an absent one is `None`, and a string stands in quotes with everything spelled
out in it that would not print.
-/

namespace CampusRules.Diagnostic

/-- A character inside a quoted diagnostic string. -/
def escape (character : Char) : List Char :=
  match character with
  | '\x00' => ['\\', '0']
  | '\t' => ['\\', 't']
  | '\r' => ['\\', 'r']
  | '\n' => ['\\', 'n']
  | '\\' => ['\\', '\\']
  | '"' => ['\\', '"']
  | other =>
    if Text.isPrintable other then [other]
    else ['\\', 'u', '\x7b'] ++ Nat.toDigits 16 other.toNat ++ ['\x7d']

/-- A string in quotes. -/
def quote (text : String) : List Char := '"' :: text.toList.flatMap escape ++ ['"']

/-- A word with its content in brackets behind it. -/
def wrap (word : String) (content : List Char) : List Char :=
  word.toList ++ '(' :: content ++ [')']

mutual

/-- A JSON value, each part under the name of its kind. -/
def value : Json → List Char
  | .null => "Null".toList
  | .bool true => "Bool(true)".toList
  | .bool false => "Bool(false)".toList
  | .number present => wrap "Number" present.text
  | .string present => wrap "String" (quote present)
  | .array [] => "Array []".toList
  | .array (first :: rest) => "Array [".toList ++ value first ++ items rest ++ [']']
  | .object [] => "Object ".toList ++ ['\x7b', '\x7d']
  | .object ((key, first) :: rest) =>
    "Object ".toList ++ '\x7b' :: quote key ++ ':' :: ' ' :: value first ++ members rest ++
      ['\x7d']
termination_by structural present => present

/-- The items after the first. -/
def items : List Json → List Char
  | [] => []
  | item :: rest => ',' :: ' ' :: value item ++ items rest
termination_by structural present => present

/-- The members after the first. -/
def members : List (String × Json) → List Char
  | [] => []
  | (key, member) :: rest =>
    ',' :: ' ' :: quote key ++ ':' :: ' ' :: value member ++ members rest
termination_by structural present => present

end

/-- Something that may be absent. -/
def optional {α : Type} (write : α → List Char) (present : Option α) : String :=
  match present with
  | none => "None"
  | some content => String.ofList (wrap "Some" (write content))

end CampusRules.Diagnostic
