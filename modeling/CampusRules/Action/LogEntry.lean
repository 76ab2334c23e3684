import CampusRules.Action.Handoff
import CampusRules.Text.Diagnostic

/-!
# Log entries

A log entry has a message and named fields. The collaborators that come with the
engine do nothing but log what they were handed, each in an entry of its own
shape. Texts appear as they are; what may be absent appears as diagnostic text.
-/

namespace CampusRules

/-- An entry of the log, for information. -/
structure LogEntry where
  message : String
  fields : List (String × String)
  deriving DecidableEq, Repr

namespace LogEntry

/-- How much an entry matters: all of them are for information. -/
def level : String := "INFO"

/-- An entry as JSON. -/
def toJson (entry : LogEntry) : Json :=
  .object <|
    [("level", .string level), ("message", .string entry.message)] ++
    entry.fields.map fun field => (field.1, .string field.2)

/-- The entry that tells what an assistant has written. -/
def written (operation output : String) : LogEntry where
  message := "AI operation '" ++ operation ++ "' produced " ++ toString output.length ++
    " characters"
  fields := []

end LogEntry

/-- The entry for a message that a logging collaborator was handed. -/
def Handoff.logEntry : Handoff → LogEntry
  | email message => ⟨"Would send email",
      [("to", message.recipient), ("subject", message.subject),
        ("template", Diagnostic.optional Diagnostic.quote message.template)]⟩
  | notification message => ⟨"Would send notification",
      [("user_id", message.userId), ("kind", message.kind), ("title", message.title)]⟩
  | updateRecord update => ⟨"Would update record",
      [("table", update.table), ("operation", update.operation),
        ("filter", (Json.object update.filter).compactText)]⟩
  | createRecord creation => ⟨"Would create record",
      [("table", creation.table), ("data", (Json.object creation.data).compactText)]⟩
  | calculate calculation _ => ⟨"Would run calculation",
      [("operation", calculation.operation),
        ("field", Diagnostic.optional Diagnostic.quote calculation.field)]⟩
  | generateReport parameters _ => ⟨"Would generate report",
      [("report", Diagnostic.optional Diagnostic.value (parameters.lookup "type"))]⟩
  | prompt text => ⟨"Would write text", [("prompt", text)]⟩

end CampusRules
