/-!
# Failures

What can go wrong when a rule is registered, changed or carried out. A `Failure`
carries the text that the caller gets to see behind a fixed beginning, which says
what kind of failure it is. Collaborators report failures of this type too.
-/

namespace CampusRules

/-- Why an operation on rules did not succeed. -/
inductive Failure where
  | notFound (id : String)
  | duplicateRule (id : String)
  | invalidTrigger (reason : String)
  | invalidCondition (reason : String)
  | invalidAction (reason : String)
  | invalidTimeFormat (time : String)
  | handlerFailed (reason : String)
  | storage (reason : String)
  | json (reason : String)
  deriving DecidableEq, Repr

namespace Failure

/-- What the text of a failure begins with. -/
def opening : Failure → String
  | notFound _ => "Rule not found: "
  | duplicateRule _ => "Rule already exists: "
  | invalidTrigger _ => "Invalid trigger: "
  | invalidCondition _ => "Invalid condition: "
  | invalidAction _ => "Invalid action: "
  | invalidTimeFormat _ => "Invalid time format: "
  | handlerFailed _ => "Action handler failed: "
  | storage _ => "IO error: "
  | json _ => "JSON error: "

/-- The text behind the opening. -/
def detail : Failure → String
  | notFound id | duplicateRule id => id
  | invalidTrigger reason | invalidCondition reason | invalidAction reason => reason
  | invalidTimeFormat time => time
  | handlerFailed reason | storage reason | json reason => reason

/-- The text of a failure. -/
def message (failure : Failure) : String := failure.opening ++ failure.detail

end Failure
end CampusRules
