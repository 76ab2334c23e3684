import CampusRules.Rule.Basic

/-!
# What actions hand to collaborators

Each kind of action hands one message to the collaborator of its kind. Texts and
mappings in a message have their templates filled in, except those that name a
structure: an email's template, a table, an operation, a field.

As JSON, a message leaves out what is absent.
-/

namespace CampusRules

/-- An email to be sent. -/
structure Email where
  recipient : String
  subject : String
  template : Option String
  values : Members
  deriving DecidableEq

/-- A notification to be shown to a user. -/
structure Notification where
  userId : String
  kind : String
  title : String
  message : String
  deriving DecidableEq

/-- Records to be changed. -/
structure RecordUpdate where
  table : String
  operation : String
  filter : Members
  data : Members
  deriving DecidableEq

/-- A record to be made. -/
structure RecordCreation where
  table : String
  data : Members
  deriving DecidableEq

/-- A calculation to be made. -/
structure Calculation where
  operation : String
  field : Option String
  weights : Option Json
  deriving DecidableEq

/-- A message to a collaborator. Calculators and report generators see the whole
context; the others see only what was filled in from it. -/
inductive Handoff where
  | email (message : Email)
  | notification (message : Notification)
  | updateRecord (update : RecordUpdate)
  | createRecord (creation : RecordCreation)
  | calculate (calculation : Calculation) (context : Json)
  | generateReport (parameters : Members) (context : Json)
  | prompt (text : String)
  deriving DecidableEq

namespace Handoff

/-- The kind of action that hands over a message. -/
def kind : Handoff → ActionKind
  | email _ => .email
  | notification _ => .notification
  | updateRecord _ => .updateRecord
  | createRecord _ => .createRecord
  | calculate _ _ => .calculate
  | generateReport _ _ => .generateReport
  | prompt _ => .aiAction

/-- The members of an optional part. -/
def optionalPart (key : String) (value : Option Json) : Members :=
  value.toList.map fun present => (key, present)

/-- The content of a message as JSON. -/
def toJson : Handoff → Json
  | email message => .object <|
    [("to", .string message.recipient), ("subject", .string message.subject)] ++
    optionalPart "template" (message.template.map .string) ++
    [("variables", .object message.values)]
  | notification message => .object
    [("userId", .string message.userId), ("type", .string message.kind),
      ("title", .string message.title), ("message", .string message.message)]
  | updateRecord update => .object
    [("table", .string update.table), ("operation", .string update.operation),
      ("where", .object update.filter), ("data", .object update.data)]
  | createRecord creation => .object
    [("table", .string creation.table), ("data", .object creation.data)]
  | calculate calculation context => .object
    [("request", .object <|
      [("operation", .string calculation.operation)] ++
      optionalPart "field" (calculation.field.map .string) ++
      optionalPart "weights" calculation.weights), ("context", context)]
  | generateReport parameters context => .object
    [("parameters", .object parameters), ("context", context)]
  | prompt text => .object [("prompt", .string text)]

end Handoff
end CampusRules
