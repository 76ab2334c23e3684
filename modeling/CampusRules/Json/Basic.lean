import CampusRules.Number.Shortest

/-!
# JSON values

A number is either an integer that fits sixty-four bits, signed or unsigned, or
a finite binary64 number; the two kinds stay apart even where they have the same
value. An object is the list of its members. Every object that a reader makes is
`Ordered`: its keys increase strictly, so a key occurs once and two objects with
the same members are the same value.

`Json.same` is structural equality as the data model defines it: numbers of one
kind compare by value, numbers of different kinds never agree.
-/

namespace CampusRules

/-- Whether an integer fits an unsigned or a signed sixty-four bit word. -/
abbrev Number.Fits (integer : Int) : Prop :=
  -0x8000000000000000 ≤ integer ∧ integer < 0x10000000000000000

/-- A JSON number. -/
inductive Number where
  | integer (value : Int) (fits : Number.Fits value)
  | float (value : Binary64)
  deriving DecidableEq

namespace Number

/-- The number as a quantity; an integer is rounded to the nearest float. -/
def quantity : Number → Quantity
  | integer value _ => .ofInt value
  | float value => .finite value

/-- A word as a number. -/
def ofUInt64 (word : UInt64) : Number :=
  integer word.toNat ⟨by have := word.toNat_lt; omega, by have := word.toNat_lt; omega⟩

/-- A byte as a number. -/
def ofUInt8 (byte : UInt8) : Number :=
  integer byte.toNat ⟨by have := byte.toNat_lt; omega, by have := byte.toNat_lt; omega⟩

/-- The number as a word, if it is an integer in the unsigned range. -/
def toUInt64? : Number → Option UInt64
  | integer value _ => if 0 ≤ value then some (UInt64.ofNat value.toNat) else none
  | float _ => none

/-- The number as a byte, if it is an integer from zero to 255. -/
def toUInt8? : Number → Option UInt8
  | integer value _ => if 0 ≤ value ∧ value < 256 then some (UInt8.ofNat value.toNat) else none
  | float _ => none

/-- Equality within one kind of number. -/
def same : Number → Number → Bool
  | integer left _, integer right _ => left == right
  | float left, float right => left.equals right
  | _, _ => false

/-- The text of a number inside JSON. -/
def text : Number → List Char
  | integer value _ => integerText value
  | float value => Layout.json.write value

end Number

/-- A JSON value. -/
inductive Json where
  | null
  | bool (value : Bool)
  | number (value : Number)
  | string (value : String)
  | array (items : List Json)
  | object (members : List (String × Json))
  deriving Inhabited

/-- The members of a JSON object. -/
abbrev Members := List (String × Json)

namespace Json

mutual

/-- Equality of values is decided constructor by constructor. -/
def decideEq : (left right : Json) → Decidable (left = right)
  | .null, .null => isTrue rfl
  | .bool left, .bool right =>
    if same : left = right then isTrue (same ▸ rfl) else isFalse (by simp [same])
  | .number left, .number right =>
    if same : left = right then isTrue (same ▸ rfl) else isFalse (by simp [same])
  | .string left, .string right =>
    if same : left = right then isTrue (same ▸ rfl) else isFalse (by simp [same])
  | .array left, .array right =>
    match decideEqItems left right with
    | isTrue same => isTrue (same ▸ rfl)
    | isFalse different => isFalse (by simp [different])
  | .object left, .object right =>
    match decideEqMembers left right with
    | isTrue same => isTrue (same ▸ rfl)
    | isFalse different => isFalse (by simp [different])
  | .null, .bool _ | .null, .number _ | .null, .string _ | .null, .array _ | .null, .object _
  | .bool _, .null | .bool _, .number _ | .bool _, .string _ | .bool _, .array _
  | .bool _, .object _ | .number _, .null | .number _, .bool _ | .number _, .string _
  | .number _, .array _ | .number _, .object _ | .string _, .null | .string _, .bool _
  | .string _, .number _ | .string _, .array _ | .string _, .object _ | .array _, .null
  | .array _, .bool _ | .array _, .number _ | .array _, .string _ | .array _, .object _
  | .object _, .null | .object _, .bool _ | .object _, .number _ | .object _, .string _
  | .object _, .array _ => isFalse (by simp)
termination_by structural left => left

/-- Equality of two lists of values. -/
def decideEqItems : (left right : List Json) → Decidable (left = right)
  | [], [] => isTrue rfl
  | [], _ :: _ | _ :: _, [] => isFalse (by simp)
  | left :: lefts, right :: rights =>
    match decideEq left right, decideEqItems lefts rights with
    | isTrue same, isTrue rest => isTrue (same ▸ rest ▸ rfl)
    | isFalse different, _ => isFalse (by simp [different])
    | _, isFalse different => isFalse (by simp [different])
termination_by structural left => left

/-- Equality of two lists of members. -/
def decideEqMembers : (left right : List (String × Json)) → Decidable (left = right)
  | [], [] => isTrue rfl
  | [], _ :: _ | _ :: _, [] => isFalse (by simp)
  | (leftKey, left) :: lefts, (rightKey, right) :: rights =>
    if keys : leftKey = rightKey then
      match decideEq left right, decideEqMembers lefts rights with
      | isTrue same, isTrue rest => isTrue (keys ▸ same ▸ rest ▸ rfl)
      | isFalse different, _ => isFalse (by simp [different])
      | _, isFalse different => isFalse (by simp [different])
    else isFalse (by simp [keys])
termination_by structural left => left

end

instance : DecidableEq Json := decideEq

mutual

/-- Structural equality: same kinds, same lengths, same keys, and numbers of the
same kind equal by value. -/
def same : Json → Json → Bool
  | .null, .null => true
  | .bool left, .bool right => left == right
  | .number left, .number right => left.same right
  | .string left, .string right => left == right
  | .array left, .array right => sameItems left right
  | .object left, .object right => sameMembers left right
  | _, _ => false
termination_by structural left => left

/-- Structural equality of two lists of values. -/
def sameItems : List Json → List Json → Bool
  | [], [] => true
  | left :: lefts, right :: rights => left.same right && sameItems lefts rights
  | _, _ => false
termination_by structural left => left

/-- Structural equality of two lists of members. -/
def sameMembers : List (String × Json) → List (String × Json) → Bool
  | [], [] => true
  | (leftKey, left) :: lefts, (rightKey, right) :: rights =>
    leftKey == rightKey && left.same right && sameMembers lefts rights
  | _, _ => false
termination_by structural left => left

end

mutual

/-- Whether every object inside a value has strictly increasing keys. -/
def Ordered : Json → Prop
  | .array items => OrderedItems items
  | .object members => (members.map Prod.fst).Pairwise (· < ·) ∧ OrderedMembers members
  | _ => True
termination_by structural value => value

/-- Whether every value of a list is ordered. -/
def OrderedItems : List Json → Prop
  | [] => True
  | item :: items => item.Ordered ∧ OrderedItems items
termination_by structural value => value

/-- Whether every member value of a list is ordered. -/
def OrderedMembers : List (String × Json) → Prop
  | [] => True
  | (_, value) :: members => value.Ordered ∧ OrderedMembers members
termination_by structural value => value

end

mutual

/-- How many arrays and objects are open around the innermost part of a value. -/
def depth : Json → Nat
  | .array items => depthItems items + 1
  | .object members => depthMembers members + 1
  | _ => 0
termination_by structural value => value

/-- The greatest depth among a list of values. -/
def depthItems : List Json → Nat
  | [] => 0
  | item :: items => max item.depth (depthItems items)
termination_by structural value => value

/-- The greatest depth among the values of members. -/
def depthMembers : List (String × Json) → Nat
  | [] => 0
  | (_, value) :: members => max value.depth (depthMembers members)
termination_by structural value => value

end

/-- The value under a key of an object; nothing for any other kind of value. -/
def member? (value : Json) (key : String) : Option Json :=
  match value with
  | .object members => members.lookup key
  | _ => none

/-- The text of a string value; nothing for any other kind of value. -/
def string? : Json → Option String
  | .string value => some value
  | _ => none

end Json

namespace Members

/-- Puts a member at its place by key, replacing one with the same key. -/
def put (key : String) (value : Json) : Members → Members
  | [] => [(key, value)]
  | (other, present) :: rest =>
    if key = other then (key, value) :: rest
    else if key < other then (key, value) :: (other, present) :: rest
    else (other, present) :: put key value rest

/-- The ordered members of a list of pairs; of pairs with one key the last counts. -/
def ofPairs (pairs : List (String × Json)) : Members :=
  pairs.foldl (fun members pair => members.put pair.1 pair.2) []

/-- Whether a key is present. -/
def has (members : Members) (key : String) : Bool := (members.lookup key).isSome

end Members
end CampusRules
