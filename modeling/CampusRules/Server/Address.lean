import CampusRules.Json.Printer
import CampusRules.Number.Decimal

/-!
# Socket addresses

An address and the number of an endpoint there, as text: `1.2.3.4:80` or
`[2001:db8::1%5]:80`, where a double colon stands for one or more groups of zeros,
the last two groups may be written as four bytes, and `%` introduces the number of
a scope.

An address of the second kind is written with its longest run of two or more zero
groups left out, the first of several equally long, and digits in lower case; one
that maps an address of the first kind shows it.
-/

namespace CampusRules

/-- A socket address. -/
inductive SocketAddress where
  | four (bytes : Vector UInt8 4) (endpoint : UInt16)
  | six (groups : Vector UInt16 8) (scope : UInt32) (endpoint : UInt16)
  deriving DecidableEq

namespace SocketAddress

/-- Splits off digits in a radix: as many as there are, unless there are none, or
more than `most`, or the number is not below `bound`. -/
def number? (radix : Nat) (most : Option Nat) (bound : Nat) (text : List Char) :
    Option (Nat × List Char) :=
  let digits := text.takeWhile fun character => (radixDigit? radix character).isSome
  let value := digits.foldl (fun total digit =>
    radix * total + (radixDigit? radix digit).getD 0) 0
  if digits = [] ∨ most.any (· < digits.length) ∨ bound ≤ value then none
  else some (value, text.drop digits.length)

/-- Passes a character. -/
def passing? (mark : Char) : List Char → Option (List Char)
  | first :: rest => if first = mark then some rest else none
  | [] => none

/-- Splits off a byte in decimal, without leading zeros. -/
def byte? (text : List Char) : Option (UInt8 × List Char) := do
  let (value, rest) ← number? 10 (some 3) 256 text
  if text.head? = some '0' ∧ text.length ≠ rest.length + 1 then none
  else some (UInt8.ofNat value, rest)

/-- Splits off four bytes with points between them. -/
def four? (text : List Char) : Option (Vector UInt8 4 × List Char) := do
  let (first, rest) ← byte? text
  let (second, rest) ← byte? (← passing? '.' rest)
  let (third, rest) ← byte? (← passing? '.' rest)
  let (fourth, rest) ← byte? (← passing? '.' rest)
  some (#v[first, second, third, fourth], rest)

/-- The group that two bytes make. -/
def groupOf (high low : UInt8) : UInt16 := high.toUInt16 * 256 + low.toUInt16

/-- The two groups that four bytes make. -/
def groupsOf (bytes : Vector UInt8 4) : List UInt16 :=
  [groupOf bytes[0] bytes[1], groupOf bytes[2] bytes[3]]

/-- Splits off at most so many groups with colons between them. Four bytes stand
for two groups and end the list; the flag tells whether they did. -/
def groups (isFirst : Bool) : (most : Nat) → List Char → List UInt16 × Bool × List Char
  | 0, text => ([], false, text)
  | most + 1, text =>
    match if isFirst then some text else passing? ':' text with
    | none => ([], false, text)
    | some start =>
      match if most = 0 then none else four? start with
      | some (bytes, rest) => (groupsOf bytes, true, rest)
      | none =>
        match number? 16 (some 4) UInt16.size start with
        | none => ([], false, text)
        | some (value, rest) =>
          let (more, ended, left) := groups false most rest
          (UInt16.ofNat value :: more, ended, left)

/-- The eight groups of a list with as many. -/
def eight? (groups : List UInt16) : Option (Vector UInt16 8) :=
  if length : groups.length = 8 then some ⟨groups.toArray, by simpa using length⟩ else none

/-- Splits off eight groups, or fewer with a double colon among them. -/
def six? (text : List Char) : Option (Vector UInt16 8 × List Char) := do
  let (front, mapped, rest) := groups true 8 text
  if front.length = 8 then (eight? front).map fun all => (all, rest)
  else if mapped then none
  else
    let rest ← passing? ':' (← passing? ':' rest)
    let (back, _, rest) := groups true (7 - front.length) rest
    let zeros := List.replicate (8 - front.length - back.length) 0
    (eight? (front ++ zeros ++ back)).map fun all => (all, rest)

/-- Reads a colon and the number of an endpoint up to the end of the text. -/
def endpoint? (text : List Char) : Option UInt16 := do
  let (value, rest) ← number? 10 none UInt16.size (← passing? ':' text)
  if rest = [] then some (UInt16.ofNat value) else none

/-- Passes an optional scope. A scope that cannot be read is not passed. -/
def scope (text : List Char) : UInt32 × List Char :=
  match (passing? '%' text).bind (number? 10 none UInt32.size) with
  | some (value, rest) => (UInt32.ofNat value, rest)
  | none => (0, text)

/-- Reads a socket address. -/
def parse? (text : String) : Option SocketAddress :=
  match text.toList with
  | '[' :: inside => do
    let (all, rest) ← six? inside
    let (scope, rest) := scope rest
    let endpoint ← endpoint? (← passing? ']' rest)
    some (.six all scope endpoint)
  | other => do
    let (bytes, rest) ← four? other
    let endpoint ← endpoint? rest
    some (.four bytes endpoint)

/-- Four bytes as text. -/
def fourText (bytes : List UInt8) : List Char :=
  ['.'].intercalate (bytes.map fun byte => decimalDigits byte.toNat)

/-- Groups as text, with colons between them. -/
def groupsText (groups : List UInt16) : List Char :=
  [':'].intercalate (groups.map fun group => Nat.toDigits 16 group.toNat)

/-- Where the longest run of zero groups begins, counted from `index`, and how long
it is; the first of several equally long. -/
def longestZeros (index : Nat) : List UInt16 → Nat × Nat
  | [] => (0, 0)
  | group :: rest =>
    let here := ((group :: rest).takeWhile (· == 0)).length
    let later := longestZeros (index + 1) rest
    if later.2 ≤ here then (index, here) else later

/-- Eight groups as text. -/
def sixText (groups : List UInt16) : List Char :=
  match groups with
  | [0, 0, 0, 0, 0, 0xffff, high, low] =>
    "::ffff:".toList ++
      fourText [(high / 256).toUInt8, high.toUInt8, (low / 256).toUInt8, low.toUInt8]
  | _ =>
    let (start, length) := longestZeros 0 groups
    if 1 < length then
      groupsText (groups.take start) ++ ':' :: ':' :: groupsText (groups.drop (start + length))
    else groupsText groups

/-- A socket address as text. -/
def text : SocketAddress → String
  | four bytes endpoint =>
    String.ofList (fourText bytes.toList ++ ':' :: decimalDigits endpoint.toNat)
  | six groups scope endpoint =>
    let scopeText := if scope = 0 then [] else '%' :: decimalDigits scope.toNat
    String.ofList
      ('[' :: sixText groups.toList ++ scopeText ++ ']' :: ':' :: decimalDigits endpoint.toNat)

end SocketAddress
end CampusRules
