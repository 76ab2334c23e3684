import CampusRules.Engine.Event
import CampusRules.Json.Basic

/-!
# The stream of events

A client of the stream is greeted first and then sent every event that happens
after it came, in order. What it sends itself is ignored. Once it has left it is
sent nothing more. A client that falls behind by more than `Event.capacity` events
misses the oldest of them and is not told.
-/

namespace CampusRules

namespace Event

/-- A message with its kind, the rule it is about and what else there is to say. -/
def message (kind id : String) (more : Members) : Json :=
  .object (("type", .string kind) :: ("rule_id", .string id) :: more)

/-- An event as a message. -/
def toJson : Event → Json
  | triggered id reason => message "rule_triggered" id [("reason", .string reason)]
  | skipped id => message "rule_skipped" id []
  | executed id count =>
    message "rule_executed" id [("execution_count", .number (.ofUInt64 count))]
  | failed id error => message "rule_failed" id [("error", .string error)]
  | created id => message "rule_created" id []
  | updated id => message "rule_updated" id []
  | removed id => message "rule_removed" id []

end Event

namespace ActionEvent

/-- An event about an action as a message. -/
def toJson : ActionEvent → Json
  | started id index kind =>
    .object [("type", .string "started"), ("rule_id", .string id),
      ("index", .number (.ofUInt64 (UInt64.ofNat index))), ("kind", .string kind.text)]
  | completed id index =>
    .object [("type", .string "completed"), ("rule_id", .string id),
      ("index", .number (.ofUInt64 (UInt64.ofNat index)))]
  | failed id index error =>
    .object [("type", .string "failed"), ("rule_id", .string id),
      ("index", .number (.ofUInt64 (UInt64.ofNat index))), ("error", .string error)]

end ActionEvent

/-- What a client is sent first. -/
def greeting : Json := .object [("type", .string "connected")]

/-- The clients in the order in which they came, and whether each is still there. -/
structure Audience where
  present : List Bool := []
  deriving DecidableEq

namespace Audience

/-- The audience with one more client, and the number of that client. -/
def join (audience : Audience) : Nat × Audience :=
  (audience.present.length, ⟨audience.present ++ [true]⟩)

/-- The audience without a client; the others keep their numbers. -/
def leave (client : Nat) (audience : Audience) : Audience :=
  ⟨audience.present.set client false⟩

/-- What each client receives of events that were sent before any of them was
served. -/
def receive (events : List Event) (audience : Audience) : List (List Json) :=
  audience.present.map fun isPresent =>
    if isPresent then (Event.kept events).map Event.toJson else []

/-- What each client receives when the last of them has just come. -/
def receiveGreeting (audience : Audience) : List (List Json) :=
  (audience.present.dropLast.map fun _ => []) ++ (audience.present.getLast?.toList.map fun _ =>
    [greeting])

end Audience
end CampusRules
