import CampusRules.Json.Basic
import CampusRules.Time.Instant

/-!
# Rules

A rule has a trigger, which makes it eligible, conditions, which decide whether
it applies, and actions, which it then carries out in order. Frequencies and
operators are open: a name that is not known is kept, and fails closed where it
is used.

A `NewRule` is what a caller asks to register, and a `RuleChange` what a caller
asks to change; neither can set the identifier of an existing rule, the time of
its creation, or the record of its executions.
-/

namespace CampusRules

/-- How often a schedule lets a rule run. -/
inductive Frequency where
  | daily
  | weekly
  | monthly
  | other (name : String)
  deriving DecidableEq

/-- How a condition compares a field with its value. -/
inductive Operator where
  | equals
  | notEquals
  | greaterThan
  | lessThan
  | contains
  | isEmpty
  | isNotEmpty
  | other (name : String)
  deriving DecidableEq

/-- What makes a rule eligible. A schedule carries a time of day and days that
are checked at registration; `condition` triggers are stored and never fire. -/
inductive Trigger where
  | event (name : String)
  | schedule (frequency : Frequency) (time : String) (dayOfWeek dayOfMonth : Option UInt8)
  | condition (field : String) (operator : Operator) (value : Json)
  deriving DecidableEq

/-- How a condition is combined with the one after it. -/
inductive Combinator where
  | and
  | or
  deriving DecidableEq

/-- A test of one field of the context. The combinator belongs to the *next*
condition; absent, it is `and`. -/
structure Condition where
  field : String
  operator : Operator
  value : Json
  next : Option Combinator
  deriving DecidableEq

/-- The kinds of action. -/
inductive ActionKind where
  | email
  | notification
  | updateRecord
  | createRecord
  | calculate
  | generateReport
  | aiAction
  deriving DecidableEq

/-- One thing that a rule does. Its parameters may hold templates at any depth. -/
structure Action where
  kind : ActionKind
  parameters : Members
  deriving DecidableEq

/-- A registered rule. -/
structure Rule where
  id : String
  name : String
  description : String
  trigger : Trigger
  conditions : List Condition
  actions : List Action
  isActive : Bool
  createdAt : Instant
  lastExecuted : Option Instant
  executionCount : UInt64
  deriving DecidableEq

/-- A rule to be registered. Without an identifier, or with an empty one, it is
given one. -/
structure NewRule where
  id : Option String := none
  name : String
  description : String := ""
  trigger : Trigger
  conditions : List Condition := []
  actions : List Action := []
  isActive : Bool := true
  deriving DecidableEq

/-- A change to a rule: fields that are absent stay as they are. -/
structure RuleChange where
  name : Option String := none
  description : Option String := none
  trigger : Option Trigger := none
  conditions : Option (List Condition) := none
  actions : Option (List Action) := none
  isActive : Option Bool := none
  deriving DecidableEq

namespace Frequency

/-- The name of a frequency. -/
def text : Frequency → String
  | daily => "daily"
  | weekly => "weekly"
  | monthly => "monthly"
  | other name => name

/-- The frequency with a name. -/
def ofText (name : String) : Frequency :=
  if name = "daily" then daily
  else if name = "weekly" then weekly
  else if name = "monthly" then monthly
  else other name

/-- Whether a frequency has a schedule of its own. -/
def isKnown : Frequency → Bool
  | other _ => false
  | _ => true

/-- The name of the frequency with a name is that name. -/
theorem text_ofText (name : String) : (ofText name).text = name := by
  unfold ofText
  split
  · simp_all [text]
  · split
    · simp_all [text]
    · split <;> simp_all [text]

end Frequency

namespace Operator

/-- The name of an operator. -/
def text : Operator → String
  | equals => "equals"
  | notEquals => "not_equals"
  | greaterThan => "greater_than"
  | lessThan => "less_than"
  | contains => "contains"
  | isEmpty => "is_empty"
  | isNotEmpty => "is_not_empty"
  | other name => name

/-- The operators with names of their own. -/
def known : List Operator :=
  [equals, notEquals, greaterThan, lessThan, contains, isEmpty, isNotEmpty]

/-- The operator with a name. -/
def ofText (name : String) : Operator :=
  (known.find? (·.text == name)).getD (other name)

/-- Whether an operator has a meaning of its own. -/
def isKnown : Operator → Bool
  | other _ => false
  | _ => true

/-- The name of the operator with a name is that name. -/
theorem text_ofText (name : String) : (ofText name).text = name := by
  unfold ofText
  cases found : known.find? (·.text == name) with
  | none => rfl
  | some operator => simpa using List.find?_some found

end Operator

namespace Combinator

/-- The name of a combinator. -/
def text : Combinator → String
  | and => "AND"
  | or => "OR"

/-- The combinator with a name. -/
def ofText? (name : String) : Option Combinator :=
  if name = "AND" then some and else if name = "OR" then some or else none

end Combinator

namespace ActionKind

/-- The name of a kind of action. -/
def text : ActionKind → String
  | email => "email"
  | notification => "notification"
  | updateRecord => "update_record"
  | createRecord => "create_record"
  | calculate => "calculate"
  | generateReport => "generate_report"
  | aiAction => "ai_action"

/-- All kinds of action. -/
def all : List ActionKind :=
  [email, notification, updateRecord, createRecord, calculate, generateReport, aiAction]

/-- The kind of action with a name. -/
def ofText? (name : String) : Option ActionKind := all.find? (·.text == name)

/-- The parameters that a kind of action cannot do without. -/
def required : ActionKind → List String
  | email => ["to", "subject"]
  | notification => ["userId", "title", "message"]
  | updateRecord => ["table", "where", "data"]
  | createRecord => ["table", "data"]
  | calculate => ["operation"]
  | generateReport => ["type"]
  | aiAction => ["operation", "prompt"]

end ActionKind

namespace Condition

/-- A condition that is combined with the next by `and`. -/
def andNext (condition : Condition) : Condition := { condition with next := some .and }

/-- A condition that is combined with the next by `or`. -/
def orNext (condition : Condition) : Condition := { condition with next := some .or }

end Condition

/-- An action with the members of an object as its parameters; any other value
gives none. -/
def Action.ofValue (kind : ActionKind) (parameters : Json) : Action :=
  match parameters with
  | .object members => ⟨kind, members⟩
  | _ => ⟨kind, []⟩

/-- Whether a request names the identifier that its rule gets. -/
def NewRule.isNamed (new : NewRule) : Bool := new.id.any (· != "")

namespace Rule

/-- What the identifiers that rules are given begin with. -/
def idPrefix : String := "rule_"

/-- The rule that a caller asked for. `fresh` is the identifier it gets if it has
none of its own. -/
def ofNew (new : NewRule) (fresh : String) (now : Instant) : Rule where
  id := (new.id.filter (· != "")).getD fresh
  name := new.name
  description := new.description
  trigger := new.trigger
  conditions := new.conditions
  actions := new.actions
  isActive := new.isActive
  createdAt := now
  lastExecuted := none
  executionCount := 0

/-- A rule with a change merged into it, field by field. -/
def merge (rule : Rule) (change : RuleChange) : Rule :=
  { rule with
    name := change.name.getD rule.name
    description := change.description.getD rule.description
    trigger := change.trigger.getD rule.trigger
    conditions := change.conditions.getD rule.conditions
    actions := change.actions.getD rule.actions
    isActive := change.isActive.getD rule.isActive }

/-- Whether an event with a name makes the rule eligible. -/
def listensFor (rule : Rule) (event : String) : Bool :=
  match rule.trigger with
  | .event name => name == event
  | _ => false

/-- Whether the passing of time makes the rule eligible. -/
def isScheduled (rule : Rule) : Bool :=
  match rule.trigger with
  | .schedule .. => true
  | _ => false

/-- A rule after one more execution. -/
def executed (rule : Rule) (time : Instant) : Rule :=
  { rule with executionCount := rule.executionCount + 1, lastExecuted := some time }

/-- A change leaves the identity and the record of a rule alone. -/
theorem merge_keeps (rule : Rule) (change : RuleChange) :
    (rule.merge change).id = rule.id ∧ (rule.merge change).createdAt = rule.createdAt ∧
      (rule.merge change).lastExecuted = rule.lastExecuted ∧
      (rule.merge change).executionCount = rule.executionCount :=
  ⟨rfl, rfl, rfl, rfl⟩

end Rule
end CampusRules
