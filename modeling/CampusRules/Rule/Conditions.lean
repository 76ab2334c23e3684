import CampusRules.Rule.Basic
import CampusRules.Template

/-!
# Conditions on a context

A condition compares the value that its field leads to with its own value, in
which templates are filled in first. An operator that is not known never holds.

A list of conditions is read from left to right with one running result. Each
condition is combined into it by the combinator of the condition *before* it;
neither combinator binds more strongly than the other, and the combinator of the
last condition has nothing to combine.
-/

namespace CampusRules

namespace Operator

/-- Whether an operator holds between the value of a field, which may be missing,
and the value of a condition. -/
def holds (operator : Operator) (found : Option Json) (expected : Json) : Bool :=
  match operator with
  | equals => Coercion.strictEquals found (some expected)
  | notEquals => !Coercion.strictEquals found (some expected)
  | greaterThan => (Coercion.toNumber (some expected)).lessThan (Coercion.toNumber found)
  | lessThan => (Coercion.toNumber found).lessThan (Coercion.toNumber (some expected))
  | contains =>
    Text.occurs (Coercion.stringify (some expected)).toList (Coercion.stringify found).toList
  | isEmpty => !Coercion.isTruthy found
  | isNotEmpty => Coercion.isTruthy found
  | other _ => false

end Operator

namespace Condition

/-- Whether a condition holds on a context. -/
def holds (context : Json) (condition : Condition) : Bool :=
  condition.operator.holds (Path.get? condition.field context)
    (Template.interpolate condition.value context)

/-- The combinator of a condition with the one after it. -/
def combinator (condition : Condition) : Combinator := condition.next.getD .and

end Condition

namespace Combinator

/-- A running result combined with one more. -/
def combine : Combinator → Bool → Bool → Bool
  | and, result, next => result && next
  | or, result, next => result || next

end Combinator

namespace Conditions

/-- The result of the conditions that are left, given the running result and the
combinator into the first of them. -/
def holdFrom (context : Json) (result : Bool) (into : Combinator) : List Condition → Bool
  | [] => result
  | condition :: rest =>
    holdFrom context (into.combine result (condition.holds context)) condition.combinator rest

/-- Whether a list of conditions holds on a context. The empty list does. -/
def hold (conditions : List Condition) (context : Json) : Bool :=
  holdFrom context true .and conditions

end Conditions
end CampusRules
