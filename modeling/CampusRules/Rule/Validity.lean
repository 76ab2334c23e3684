import CampusRules.Failure
import CampusRules.Rule.Basic
import CampusRules.Text.Blank
import CampusRules.Time.TimeOfDay

/-!
# Validity of rules

What a rule must satisfy to be registered. Its trigger is looked at first, then
its conditions in order, then its actions in order, and the first `Flaw` found
is the one reported. Unknown operators and frequencies are no flaws: they fail
closed where they are used.

The time of day and the days of a schedule are checked here and nowhere else.
-/

namespace CampusRules

/-- What makes a rule unfit to be registered. -/
inductive Flaw where
  | blankEvent
  | blankTriggerField
  | time (text : String)
  | dayOfWeek (day : UInt8)
  | dayOfMonth (day : UInt8)
  | blankField (operator : Operator)
  | missingParameters (kind : ActionKind) (keys : List String)
  deriving DecidableEq

/-- The failure that reports a flaw. -/
def Flaw.failure : Flaw → Failure
  | blankEvent => .invalidTrigger "event name must not be empty"
  | blankTriggerField => .invalidTrigger "condition trigger field must not be empty"
  | time text => .invalidTimeFormat text
  | dayOfWeek day => .invalidTrigger ("dayOfWeek must be 0-6, got " ++ toString day.toNat)
  | dayOfMonth day => .invalidTrigger ("dayOfMonth must be 1-31, got " ++ toString day.toNat)
  | blankField operator =>
    .invalidCondition ("field must not be empty (operator " ++ operator.text ++ ")")
  | missingParameters kind keys =>
    .invalidAction (kind.text ++ " action is missing parameters: " ++ ", ".intercalate keys)

/-- The flaw of a trigger, if it has one. A schedule's time is looked at before
its days. -/
def Trigger.flaw? : Trigger → Option Flaw
  | event name => if Text.allBlank name then some .blankEvent else none
  | schedule _ time dayOfWeek dayOfMonth =>
    if (TimeOfDay.parse? time).isNone then some (.time time)
    else match dayOfWeek.filter (6 < ·) with
      | some day => some (.dayOfWeek day)
      | none => (dayOfMonth.filter fun day => day < 1 || 31 < day).map .dayOfMonth
  | condition field _ _ => if Text.allBlank field then some .blankTriggerField else none

/-- The flaw of a condition, if it has one. -/
def Condition.flaw? (condition : Condition) : Option Flaw :=
  if Text.allBlank condition.field then some (.blankField condition.operator) else none

/-- The required parameters that an action does not have. -/
def Action.missing (action : Action) : List String :=
  action.kind.required.filter fun key => !action.parameters.has key

/-- The flaw of an action, if it has one. -/
def Action.flaw? (action : Action) : Option Flaw :=
  if action.missing = [] then none else some (.missingParameters action.kind action.missing)

/-- The first flaw of a rule, if it has one. -/
def Rule.flaw? (rule : Rule) : Option Flaw :=
  rule.trigger.flaw? <|> rule.conditions.findSome? Condition.flaw? <|>
    rule.actions.findSome? Action.flaw?

/-- Whether a rule may be registered. -/
def Rule.isValid (rule : Rule) : Bool := rule.flaw?.isNone

end CampusRules
