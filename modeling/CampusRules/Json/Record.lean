import CampusRules.Json.Raw

/-!
# Reading records out of raw trees

A record is an object with known keys, or an array of its fields in declaration
order. Reading goes through the text once, from left to right, and the first
thing wrong decides the `Refusal`: the text is not JSON (`malformed`), or it is
JSON of another shape (`mismatched`).

`Record.fields` finds the raw tree of every known field, checking each where it
stands. Unknown keys are skipped; a known key given twice is refused before its
second value is looked at. An array may end early, and must not go on after the
last field.
-/

namespace CampusRules.Json

/-- Why a text was not read as what it should be. -/
inductive Refusal where
  | malformed
  | mismatched
  deriving DecidableEq, Repr

namespace Raw

/-- How a tree is refused where something of another kind should stand. An array
or object is refused at its bracket; a scalar must first be sound by itself. -/
def refusal : Raw → Refusal
  | .broken => .malformed
  | .unfit (.array _ _) | .unfit (.object _ _) => .mismatched
  | .unfit _ => .malformed
  | _ => .mismatched

/-- Reads any value. -/
def readValue (tree : Raw) : Except Refusal Json :=
  match tree.value? with
  | some value => .ok value
  | none => .error .malformed

/-- Reads a string. -/
def readText : Raw → Except Refusal String
  | .string value => .ok value
  | other => .error other.refusal

/-- Reads a truth value. -/
def readBool : Raw → Except Refusal Bool
  | .bool value => .ok value
  | other => .error other.refusal

/-- Reads an unsigned word; a float is refused even if it is whole. -/
def readUInt64 : Raw → Except Refusal UInt64
  | .number value =>
    match value.toUInt64? with
    | some word => .ok word
    | none => .error .mismatched
  | other => .error other.refusal

/-- Reads a byte. -/
def readUInt8 : Raw → Except Refusal UInt8
  | .number value =>
    match value.toUInt8? with
    | some byte => .ok byte
    | none => .error .mismatched
  | other => .error other.refusal

/-- Reads a value that may be absent: `null` stands for absence. -/
def readOptional {α : Type} (read : Raw → Except Refusal α) : Raw → Except Refusal (Option α)
  | .null => .ok none
  | tree => (read tree).map some

/-- Reads a list; an item is read before the text behind it is looked at. -/
def readList {α : Type} (read : Raw → Except Refusal α) : Raw → Except Refusal (List α)
  | .array items ended => do
    let values ← items.mapM read
    if ended then .ok values else .error .malformed
  | other => .error other.refusal

/-- Reads a free-form object. -/
def readMembers : Raw → Except Refusal Members
  | .object members ended =>
    match (Raw.object members ended).value? with
    | some (.object values) => .ok values
    | _ => .error .malformed
  | .unfit (.object _ _) => .error .malformed
  | other => .error other.refusal

/-- Reads one of a closed set of names: a string, or an object whose only member
has the name as its key and `null` as its value. -/
def readName {α : Type} (named? : String → Option α) : Raw → Except Refusal α
  | .string name =>
    match named? name with
    | some value => .ok value
    | none => .error .mismatched
  | .object ((.text name, value) :: more) ended =>
    match named? name, value with
    | none, _ => .error .mismatched
    | some found, .null => if more.isEmpty && ended then .ok found else .error .malformed
    | some _, other => .error other.refusal
  | _ => .error .malformed

end Raw

/-- A known field of a record: its key and the check its value must pass where it
stands. -/
structure Field where
  key : String
  check : Raw → Except Refusal Unit

namespace Field

/-- A field whose value is read by `read`. -/
def of {α : Type} (key : String) (read : Raw → Except Refusal α) : Field :=
  ⟨key, fun tree => (read tree).map fun _ => ()⟩

end Field

/-- The fields found in a record, by key. -/
abbrev Found := List (String × Raw)

namespace Record

/-- The known fields among the members of an object. -/
def ofMembers (known : List Field) (ended : Bool) :
    Found → List (Key × Raw) → Except Refusal Found
  | found, [] => if ended then .ok found else .error .malformed
  | found, (.text key, tree) :: members =>
    match known.find? (·.key == key) with
    | some field =>
      if (found.lookup key).isSome then .error .mismatched
      else do
        field.check tree
        ofMembers known ended (found ++ [(key, tree)]) members
    | none => if tree.skippable then ofMembers known ended found members else .error .malformed
  | _, (_, _) :: _ => .error .malformed

/-- The fields of a record written as an array; `excess` is the refusal of an
array that goes on after the last field. -/
def ofItems (excess : Refusal) (ended : Bool) : List Field → List Raw → Except Refusal Found
  | [], [] => if ended then .ok [] else .error .malformed
  | [], _ :: _ => .error excess
  | _ :: _, [] => if ended then .ok [] else .error .malformed
  | field :: fields, item :: items => do
    field.check item
    let found ← ofItems excess ended fields items
    .ok ((field.key, item) :: found)

/-- The fields of a record. -/
def fields (excess : Refusal) (known : List Field) : Raw → Except Refusal Found
  | .object members ended => ofMembers known ended [] members
  | .array items ended => ofItems excess ended known items
  | .unfit (.array _ _) | .unfit (.object _ _) => .error .malformed
  | other => .error other.refusal

/-- The value of a field that must be there. -/
def required {α : Type} (found : Found) (key : String) (read : Raw → Except Refusal α) :
    Except Refusal α :=
  match found.lookup key with
  | some tree => read tree
  | none => .error .mismatched

/-- The value of a field that has a default. -/
def defaulted {α : Type} (found : Found) (key : String) (read : Raw → Except Refusal α)
    (default : α) : Except Refusal α :=
  match found.lookup key with
  | some tree => read tree
  | none => .ok default

end Record
end CampusRules.Json
