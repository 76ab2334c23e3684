import CampusRules.Json.Record
import CampusRules.Rule.Basic
import CampusRules.Time.Timestamp

/-!
# Rules as JSON

Each type has a writer, which gives the members in declaration order and leaves
out optional fields that are absent, and a reader, which takes the members in any
order or the fields in an array. A trigger is read in two passes: first its kind
is found, and the whole of it must be sound, then the fields of that kind are
read.
-/

namespace CampusRules

open Json (Raw Refusal Field)

/-- The member of an optional field: none if it is absent. -/
def optionalMember {α : Type} (key : String) (write : α → Json) (value : Option α) : Members :=
  match value with
  | some present => [(key, write present)]
  | none => []

namespace Instant

/-- An instant as a timestamp. -/
def toJson (instant : Instant) : Json := .string (Timestamp.write instant)

/-- Reads a timestamp. -/
def read (tree : Raw) : Except Refusal Instant := do
  match Timestamp.parse? (← tree.readText) with
  | some instant => .ok instant
  | none => .error .mismatched

end Instant

namespace Frequency

/-- Reads the name of a frequency. -/
def read (tree : Raw) : Except Refusal Frequency := tree.readText.map ofText

end Frequency

namespace Operator

/-- Reads the name of an operator. -/
def read (tree : Raw) : Except Refusal Operator := tree.readText.map ofText

end Operator

namespace Combinator

/-- Reads the name of a combinator. -/
def read (tree : Raw) : Except Refusal Combinator := tree.readName ofText?

end Combinator

namespace ActionKind

/-- Reads the name of a kind of action. -/
def read (tree : Raw) : Except Refusal ActionKind := tree.readName ofText?

end ActionKind

namespace Condition

/-- A condition as JSON. -/
def toJson (condition : Condition) : Json :=
  .object <|
    [("field", .string condition.field), ("operator", .string condition.operator.text),
      ("value", condition.value)] ++
    optionalMember "logicalOperator" (fun next => .string next.text) condition.next

/-- The fields of a condition. -/
def fields : List Field :=
  [.of "field" Raw.readText, .of "operator" Operator.read, .of "value" Raw.readValue,
    .of "logicalOperator" (Raw.readOptional Combinator.read)]

/-- Reads a condition. -/
def read (tree : Raw) : Except Refusal Condition := do
  let found ← Json.Record.fields .malformed fields tree
  .ok {
    field := ← Json.Record.required found "field" Raw.readText
    operator := ← Json.Record.required found "operator" Operator.read
    value := ← Json.Record.defaulted found "value" Raw.readValue .null
    next := ← Json.Record.defaulted found "logicalOperator" (Raw.readOptional Combinator.read) none }

end Condition

namespace Action

/-- An action as JSON. -/
def toJson (action : Action) : Json :=
  .object [("type", .string action.kind.text), ("parameters", .object action.parameters)]

/-- The fields of an action. -/
def fields : List Field :=
  [.of "type" ActionKind.read, .of "parameters" Raw.readMembers]

/-- Reads an action. -/
def read (tree : Raw) : Except Refusal Action := do
  let found ← Json.Record.fields .malformed fields tree
  .ok {
    kind := ← Json.Record.required found "type" ActionKind.read
    parameters := ← Json.Record.defaulted found "parameters" Raw.readMembers [] }

end Action

namespace Trigger

/-- A trigger as JSON, its kind first. -/
def toJson : Trigger → Json
  | event name => .object [("type", .string "event"), ("eventName", .string name)]
  | schedule frequency time dayOfWeek dayOfMonth =>
    .object <|
      [("type", .string "schedule"), ("frequency", .string frequency.text),
        ("time", .string time)] ++
      optionalMember "dayOfWeek" (fun day => .number (.ofUInt8 day)) dayOfWeek ++
      optionalMember "dayOfMonth" (fun day => .number (.ofUInt8 day)) dayOfMonth
  | condition field operator value =>
    .object [("type", .string "condition"), ("field", .string field),
      ("operator", .string operator.text), ("value", value)]

/-- The kinds of trigger. -/
inductive Kind where
  | event
  | schedule
  | condition
  deriving DecidableEq

/-- The kind of trigger with a name. -/
def Kind.ofText? (name : String) : Option Kind :=
  if name = "event" then some .event
  else if name = "schedule" then some .schedule
  else if name = "condition" then some .condition
  else none

/-- Reads the name of a kind of trigger. -/
def Kind.read (tree : Raw) : Except Refusal Kind := do
  match ofText? (← tree.readText) with
  | some kind => .ok kind
  | none => .error .mismatched

/-- The kind of a trigger among the members of an object, and the other members.
All of them must be sound, and the kind may be given once. -/
def splitKind (ended : Bool) :
    Option Kind → List (Json.Key × Raw) → Except Refusal (Kind × List (Json.Key × Raw))
  | some kind, [] => if ended then .ok (kind, []) else .error .malformed
  | none, [] => .error (if ended then .mismatched else .malformed)
  | found, (.text key, tree) :: members =>
    if key = "type" then
      match found with
      | some _ => .error .mismatched
      | none => do
        let kind ← Kind.read tree
        splitKind ended (some kind) members
    else do
      let _ ← tree.readValue
      let (kind, others) ← splitKind ended found members
      .ok (kind, (.text key, tree) :: others)
  | _, (_, _) :: _ => .error .malformed

/-- The fields of an event trigger. -/
def eventFields : List Field := [.of "eventName" Raw.readText]

/-- The fields of a schedule trigger. -/
def scheduleFields : List Field :=
  [.of "frequency" Frequency.read, .of "time" Raw.readText,
    .of "dayOfWeek" (Raw.readOptional Raw.readUInt8),
    .of "dayOfMonth" (Raw.readOptional Raw.readUInt8)]

/-- The fields of a condition trigger. -/
def conditionFields : List Field :=
  [.of "field" Raw.readText, .of "operator" Operator.read, .of "value" Raw.readValue]

/-- Reads the fields of a trigger whose kind is known and whose text is sound. -/
def readKind (kind : Kind) (tree : Raw) : Except Refusal Trigger :=
  match kind with
  | .event => do
    let found ← Json.Record.fields .mismatched eventFields tree
    .ok (.event (← Json.Record.required found "eventName" Raw.readText))
  | .schedule => do
    let found ← Json.Record.fields .mismatched scheduleFields tree
    .ok (.schedule
      (← Json.Record.required found "frequency" Frequency.read)
      (← Json.Record.required found "time" Raw.readText)
      (← Json.Record.defaulted found "dayOfWeek" (Raw.readOptional Raw.readUInt8) none)
      (← Json.Record.defaulted found "dayOfMonth" (Raw.readOptional Raw.readUInt8) none))
  | .condition => do
    let found ← Json.Record.fields .mismatched conditionFields tree
    .ok (.condition
      (← Json.Record.required found "field" Raw.readText)
      (← Json.Record.required found "operator" Operator.read)
      (← Json.Record.defaulted found "value" Raw.readValue .null))

/-- Reads a trigger: an object with a member `type`, or an array that begins with
the kind. -/
def read : Raw → Except Refusal Trigger
  | .object members ended => do
    let (kind, others) ← splitKind ended none members
    readKind kind (.object others true)
  | .array [] ended => .error (if ended then .mismatched else .malformed)
  | .array (first :: rest) ended => do
    let kind ← Kind.read first
    match (Raw.array rest ended).value? with
    | some _ => readKind kind (.array rest true)
    | none => .error .malformed
  | .unfit (.array _ _) | .unfit (.object _ _) => .error .malformed
  | other => .error other.refusal

end Trigger

namespace Rule

/-- A rule as JSON. -/
def toJson (rule : Rule) : Json :=
  .object <|
    [("id", .string rule.id), ("name", .string rule.name),
      ("description", .string rule.description), ("trigger", rule.trigger.toJson),
      ("conditions", .array (rule.conditions.map Condition.toJson)),
      ("actions", .array (rule.actions.map Action.toJson)),
      ("isActive", .bool rule.isActive), ("createdAt", rule.createdAt.toJson)] ++
    optionalMember "lastExecuted" Instant.toJson rule.lastExecuted ++
    [("executionCount", .number (.ofUInt64 rule.executionCount))]

/-- The fields of a rule. -/
def fields : List Field :=
  [.of "id" Raw.readText, .of "name" Raw.readText, .of "description" Raw.readText,
    .of "trigger" Trigger.read, .of "conditions" (Raw.readList Condition.read),
    .of "actions" (Raw.readList Action.read), .of "isActive" Raw.readBool,
    .of "createdAt" Instant.read, .of "lastExecuted" (Raw.readOptional Instant.read),
    .of "executionCount" Raw.readUInt64]

/-- Reads a rule. -/
def read (tree : Raw) : Except Refusal Rule := do
  let found ← Json.Record.fields .malformed fields tree
  .ok {
    id := ← Json.Record.required found "id" Raw.readText
    name := ← Json.Record.required found "name" Raw.readText
    description := ← Json.Record.defaulted found "description" Raw.readText ""
    trigger := ← Json.Record.required found "trigger" Trigger.read
    conditions := ← Json.Record.defaulted found "conditions" (Raw.readList Condition.read) []
    actions := ← Json.Record.required found "actions" (Raw.readList Action.read)
    isActive := ← Json.Record.defaulted found "isActive" Raw.readBool true
    createdAt := ← Json.Record.required found "createdAt" Instant.read
    lastExecuted := ← Json.Record.defaulted found "lastExecuted" (Raw.readOptional Instant.read) none
    executionCount := ← Json.Record.defaulted found "executionCount" Raw.readUInt64 0 }

/-- A list of rules as JSON. -/
def listToJson (rules : List Rule) : Json := .array (rules.map toJson)

/-- Reads a list of rules. -/
def readList : Raw → Except Refusal (List Rule) := Raw.readList read

end Rule

namespace NewRule

/-- The fields of a rule to be registered. -/
def fields : List Field :=
  [.of "id" (Raw.readOptional Raw.readText), .of "name" Raw.readText,
    .of "description" Raw.readText, .of "trigger" Trigger.read,
    .of "conditions" (Raw.readList Condition.read), .of "actions" (Raw.readList Action.read),
    .of "isActive" Raw.readBool]

/-- Reads a rule to be registered. -/
def read (tree : Raw) : Except Refusal NewRule := do
  let found ← Json.Record.fields .malformed fields tree
  .ok {
    id := ← Json.Record.defaulted found "id" (Raw.readOptional Raw.readText) none
    name := ← Json.Record.required found "name" Raw.readText
    description := ← Json.Record.defaulted found "description" Raw.readText ""
    trigger := ← Json.Record.required found "trigger" Trigger.read
    conditions := ← Json.Record.defaulted found "conditions" (Raw.readList Condition.read) []
    actions := ← Json.Record.required found "actions" (Raw.readList Action.read)
    isActive := ← Json.Record.defaulted found "isActive" Raw.readBool true }

end NewRule

namespace RuleChange

/-- The fields of a change, all of them optional. -/
def fields : List Field :=
  [.of "name" (Raw.readOptional Raw.readText),
    .of "description" (Raw.readOptional Raw.readText),
    .of "trigger" (Raw.readOptional Trigger.read),
    .of "conditions" (Raw.readOptional (Raw.readList Condition.read)),
    .of "actions" (Raw.readOptional (Raw.readList Action.read)),
    .of "isActive" (Raw.readOptional Raw.readBool)]

/-- Reads a change. -/
def read (tree : Raw) : Except Refusal RuleChange := do
  let found ← Json.Record.fields .malformed fields tree
  .ok {
    name := ← Json.Record.defaulted found "name" (Raw.readOptional Raw.readText) none
    description := ← Json.Record.defaulted found "description" (Raw.readOptional Raw.readText) none
    trigger := ← Json.Record.defaulted found "trigger" (Raw.readOptional Trigger.read) none
    conditions :=
      ← Json.Record.defaulted found "conditions" (Raw.readOptional (Raw.readList Condition.read)) none
    actions :=
      ← Json.Record.defaulted found "actions" (Raw.readOptional (Raw.readList Action.read)) none
    isActive := ← Json.Record.defaulted found "isActive" (Raw.readOptional Raw.readBool) none }

end RuleChange
end CampusRules
