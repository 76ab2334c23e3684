import CampusRules.Proofs.Coercion.Comparison
import CampusRules.Rule.Conditions

/-!
# The comparison operators fit together

Equality is typed and order goes through numbers, yet no condition says of one field that it is
equal to a value and above or below it. This rests on equal values coercing to equal numbers. What
coerces to no number is neither above nor below anything.
-/

namespace CampusRules

namespace Condition

/-- A condition with another operator. -/
def under (condition : Condition) (operator : Operator) : Condition := { condition with operator }

variable (context : Json) (condition : Condition)

/-- A field that is equal to a value is not above it. -/
theorem not_equals_and_greaterThan :
    ¬((condition.under .equals).holds context = true ∧
      (condition.under .greaterThan).holds context = true) := by
  rintro ⟨equal, above⟩
  exact Bool.false_ne_true ((Coercion.lessThan_of_strictEquals equal).2.symm.trans above)

/-- A field that is equal to a value is not below it. -/
theorem not_equals_and_lessThan :
    ¬((condition.under .equals).holds context = true ∧
      (condition.under .lessThan).holds context = true) := by
  rintro ⟨equal, below⟩
  exact Bool.false_ne_true ((Coercion.lessThan_of_strictEquals equal).1.symm.trans below)

/-- A field that is above a value is not below it. -/
theorem not_greaterThan_and_lessThan :
    ¬((condition.under .greaterThan).holds context = true ∧
      (condition.under .lessThan).holds context = true) := by
  rintro ⟨above, below⟩
  exact Bool.false_ne_true ((Quantity.lessThan_asymmetric _ _ above).symm.trans below)

end Condition

/-- Strict equality is an equivalence of all values that are present, and never holds of a missing
one. Of one field and one value at most one of the conditions that the field is equal to it, above
it or below it holds; it is either equal or not equal to it; and it is neither above nor below it
if one of them coerces to no number. -/
theorem comparisons_fit_together :
    (Equivalence fun left right : Json =>
      Coercion.strictEquals (some left) (some right) = true) ∧
    (∀ side, Coercion.strictEquals none side = false ∧ Coercion.strictEquals side none = false) ∧
    ∀ (context : Json) (condition : Condition),
      (¬((condition.under .equals).holds context = true ∧
          (condition.under .greaterThan).holds context = true) ∧
        ¬((condition.under .equals).holds context = true ∧
          (condition.under .lessThan).holds context = true) ∧
        ¬((condition.under .greaterThan).holds context = true ∧
          (condition.under .lessThan).holds context = true)) ∧
      (condition.under .notEquals).holds context = !(condition.under .equals).holds context ∧
      (Coercion.toNumber (Path.get? condition.field context) = .undefined ∨
        Coercion.toNumber (some (Template.interpolate condition.value context)) = .undefined →
        (condition.under .greaterThan).holds context = false ∧
          (condition.under .lessThan).holds context = false) := by
  refine ⟨Coercion.strictEquals_equivalence, Coercion.strictEquals_missing, ?_⟩
  intro context condition
  refine ⟨⟨condition.not_equals_and_greaterThan context, condition.not_equals_and_lessThan context,
    condition.not_greaterThan_and_lessThan context⟩, rfl, ?_⟩
  intro undefined
  exact ⟨Quantity.lessThan_of_undefined undefined.symm, Quantity.lessThan_of_undefined undefined⟩

/-- A grade that is given as a letter. -/
def lettered : Json := .object [("grade", .string "A")]

/-- A condition on a grade as a percentage. -/
def passing : Condition where
  field := "grade"
  operator := .greaterThan
  value := .number (.integer 70 (by decide))
  next := none

/-- A letter is no number, so it is neither above nor below seventy; and it is not equal to it. -/
theorem letter_is_incomparable :
    Coercion.toNumber (Path.get? passing.field lettered) = .undefined ∧
    (passing.under .greaterThan).holds lettered = false ∧
    (passing.under .lessThan).holds lettered = false ∧
    (passing.under .notEquals).holds lettered = true := by
  have undefined : Coercion.toNumber (Path.get? passing.field lettered) = .undefined := by
    decide +kernel
  have equal : (passing.under .equals).holds lettered = false := by decide +kernel
  obtain ⟨_, opposite, incomparable⟩ := comparisons_fit_together.2.2 lettered passing
  obtain ⟨above, below⟩ := incomparable (.inl undefined)
  exact ⟨undefined, above, below, by rw [opposite, equal, Bool.not_false]⟩

end CampusRules
