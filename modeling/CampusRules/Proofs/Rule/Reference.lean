import CampusRules.Proofs.Coercion.Written
import CampusRules.Proofs.Template.Decomposition
import CampusRules.Rule.Conditions

/-!
# Comparing with a number that is named

A condition may name the number that it compares with by a path, as the one token of a template,
instead of giving it. The template is filled in with the text of the number, and that text counts as
the number again, so the comparison comes out as with the number itself.
-/

namespace CampusRules

namespace Template

/-- The template that is one token with a path in it. -/
def reference (path : String) : Json := .string (String.ofList (Piece.token path.toList).source)

/-- A token by itself is filled in with the text of the value that its path leads to. -/
theorem interpolate_reference {path : String} {context value : Json}
    (isInner : IsInner path.toList) (trimmed : Text.trim path.toList = path.toList)
    (found : Path.get? path context = some value) :
    interpolate (reference path) context = .string (Coercion.stringify (some value)) := by
  have alone : pieces (Piece.token path.toList).source = [.token path.toList] := by
    have scanned := scan_token isInner []
    rwa [List.append_nil] at scanned
  have named : tokenPath path.toList = path := by
    rw [tokenPath, trimmed, String.ofList_toList]
  have filled : (Piece.token path.toList).render context = value.text := by
    rw [Piece.render, named, found]
  rw [reference, interpolate, interpolateText, interpolateChars, String.toList_ofList, alone,
    List.flatMap_singleton, filled, Coercion.stringify]

end Template

namespace Operator

/-- The operators that compare by order hold alike of values that count as equal numbers. -/
theorem holds_congr {operator : Operator} (ordering : operator = .greaterThan ∨ operator = .lessThan)
    {first second : Json}
    (equal : (Coercion.toNumber (some first)).equals (Coercion.toNumber (some second)) = true)
    (found : Option Json) : operator.holds found first = operator.holds found second := by
  obtain ⟨above, below⟩ := Quantity.lessThan_congr equal (Coercion.toNumber found)
  rcases ordering with rfl | rfl
  · exact above
  · exact below

end Operator

/-- Every number counts the same by itself, as its text, and as the one item of an array. So to
compare by order with a number that a path leads to is to compare with the number, if the path is
one that a token can name. -/
theorem numbers_survive_text :
    (∀ number : Number,
      (Coercion.toNumber (some (.string (Coercion.stringify (some (.number number)))))).equals
          (Coercion.toNumber (some (.number number))) = true ∧
        (Coercion.toNumber (some (.array [.number number]))).equals
          (Coercion.toNumber (some (.number number))) = true) ∧
    ∀ (context : Json) (path : String) (number : Number),
      path ≠ "" → '}' ∉ path.toList → Text.trim path.toList = path.toList →
      Path.get? path context = some (.number number) →
      ∀ (condition : Condition) (operator : Operator),
        operator = .greaterThan ∨ operator = .lessThan →
        ({ condition with operator, value := Template.reference path } : Condition).holds context =
          ({ condition with operator, value := .number number } : Condition).holds context := by
  have written (number : Number) :
      (Coercion.toNumber (some (.string (Coercion.stringify (some (.number number)))))).equals
        (Coercion.toNumber (some (.number number))) = true := by
    rw [Coercion.stringify, Coercion.toNumber_ofList]
    exact Coercion.textNumber_number number
  refine ⟨fun number => ⟨written number, Coercion.textNumber_number number⟩, ?_⟩
  intro context path number nonempty unclosed trimmed found condition operator ordering
  have isInner : Template.IsInner path.toList :=
    ⟨fun none => nonempty (String.toList_eq_nil_iff.mp none), unclosed⟩
  have filled := Template.interpolate_reference isInner trimmed found
  have literal : Template.interpolate (.number number) context = .number number := rfl
  rw [Condition.holds, Condition.holds, filled, literal]
  exact Operator.holds_congr ordering (written number) _

/-- The least whole number that is written with an exponent, `10 ^ 21`. -/
def endowment : Number := .float ⟨false, ⟨0x444B1AE4D6E2EF50, by decide⟩⟩

/-- A budget with that number as its limit. -/
def budget : Json :=
  .object [("limit", .number endowment), ("spent", .number (.ofUInt8 70))]

/-- A condition on what was spent. -/
def spending : Condition where
  field := "spent"
  operator := .lessThan
  value := .null
  next := none

/-- The limit is written with an exponent, and what was spent is below it whether it is named or
given. -/
theorem spending_stays_below_named_limit :
    "limit" ≠ "" ∧ '}' ∉ "limit".toList ∧ Text.trim "limit".toList = "limit".toList ∧
      Path.get? "limit" budget = some (.number endowment) ∧
      Coercion.stringify (some (.number endowment)) = "1e+21" ∧
      ({ spending with value := Template.reference "limit" } : Condition).holds budget = true := by
  have nonempty : "limit" ≠ "" := by decide
  have unclosed : '}' ∉ "limit".toList := by decide
  have trimmed : Text.trim "limit".toList = "limit".toList := by decide +kernel
  have found : Path.get? "limit" budget = some (.number endowment) := by decide +kernel
  have written : Coercion.stringify (some (.number endowment)) = "1e+21" := by decide +kernel
  have given : ({ spending with value := .number endowment } : Condition).holds budget = true := by
    decide +kernel
  refine ⟨nonempty, unclosed, trimmed, found, written, ?_⟩
  exact (numbers_survive_text.2 budget "limit" endowment nonempty unclosed trimmed found spending
    .lessThan (.inr rfl)).trans given

end CampusRules
