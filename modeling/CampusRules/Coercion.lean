import CampusRules.Path
import CampusRules.Text.Blank

/-!
# Loose coercions

Rule data comes from a dynamically typed host, so comparing and rendering values
follows its coercions. A missing value renders as `undefined`, a list as its
items with commas between them, an object as a fixed word. As a number, a text
must be a numeral or a literal with a radix prefix; a list of one item counts as
that item's text.

`strictEquals` does not coerce: a missing value equals nothing, two numbers are
compared by value whatever their kind, and all other values structurally.
-/

namespace CampusRules

namespace Json

mutual

/-- An item of a list rendered into running text; `null` is empty there. -/
def itemText : Json → List Char
  | .null => []
  | .bool true => "true".toList
  | .bool false => "false".toList
  | .number (.integer value _) => integerText value
  | .number (.float value) => Layout.plain.write value
  | .string value => value.toList
  | .array [] => []
  | .array (first :: rest) => itemText first ++ moreText rest
  | .object _ => "[object Object]".toList
termination_by structural value => value

/-- The items after the first, each behind its comma. -/
def moreText : List Json → List Char
  | [] => []
  | item :: items => ',' :: itemText item ++ moreText items
termination_by structural items => items

end

/-- A value rendered into running text: `null` is a word there, and any other
value reads as it does inside a list. -/
def text (value : Json) : List Char :=
  match value with
  | .null => "null".toList
  | other => other.itemText

end Json

namespace Coercion

/-- The text of a value that may be missing. -/
def stringify (value : Option Json) : String :=
  match value with
  | none => "undefined"
  | some present => String.ofList present.text

/-- The radix that a prefix announces. -/
def radix? : List Char → Option (Nat × List Char)
  | '0' :: 'x' :: rest | '0' :: 'X' :: rest => some (16, rest)
  | '0' :: 'o' :: rest | '0' :: 'O' :: rest => some (8, rest)
  | '0' :: 'b' :: rest | '0' :: 'B' :: rest => some (2, rest)
  | _ => none

/-- The number that digits write in a radix, rounding after each multiplication
and each addition; undefined at a character that is no digit. -/
def radixNumeral (radix : Nat) (total : Quantity) : List Char → Quantity
  | [] => total
  | character :: rest =>
    match radixDigit? radix character with
    | some digit => radixNumeral radix ((total.timesNat radix).plusNat digit) rest
    | none => .undefined

/-- Whether a text begins with an ASCII letter behind any number of signs. -/
def beginsWithLetter (text : List Char) : Bool :=
  match text.dropWhile fun character => character == '+' || character == '-' with
  | first :: _ => first.isAlpha
  | [] => false

/-- The number that a trimmed text stands for. -/
def trimmedNumber (text : List Char) : Quantity :=
  if text = [] then .finite Binary64.zero
  else if text = "Infinity".toList ∨ text = "+Infinity".toList then .infinite false
  else if text = "-Infinity".toList then .infinite true
  else if beginsWithLetter text then .undefined
  else match radix? text with
    | some (_, []) => .undefined
    | some (radix, digits) => radixNumeral radix (.finite Binary64.zero) digits
    | none => match Decimal.parse? text with
      | some decimal => decimal.toQuantity
      | none => .undefined

/-- The number that a text stands for, blanks at its ends apart. -/
def textNumber (text : List Char) : Quantity := trimmedNumber (Text.trim text)

/-- The number that a value that may be missing stands for. -/
def toNumber (value : Option Json) : Quantity :=
  match value with
  | none => .undefined
  | some .null => .finite Binary64.zero
  | some (.bool present) => .ofNat false (if present then 1 else 0)
  | some (.number present) => present.quantity
  | some (.string present) => textNumber present.toList
  | some (.array []) => .finite Binary64.zero
  | some (.array [single]) => textNumber single.text
  | some (.array _) => .undefined
  | some (.object _) => .undefined

/-- Whether a value that may be missing counts as true. -/
def isTruthy (value : Option Json) : Bool :=
  match value with
  | none | some .null => false
  | some (.bool present) => present
  | some (.number present) => present.quantity.isTruthy
  | some (.string present) => !present.isEmpty
  | some (.array _) | some (.object _) => true

/-- Equality without coercion. -/
def strictEquals (left right : Option Json) : Bool :=
  match left, right with
  | some (.number leftNumber), some (.number rightNumber) =>
    leftNumber.quantity.equals rightNumber.quantity
  | some leftValue, some rightValue => leftValue.same rightValue
  | _, _ => false

end Coercion
end CampusRules
