import CampusRules.Proofs.Registry.WellFormed

/-!
# Amendments

What calls do to a registry, as data: each amendment says what becomes of the list of rules,
and nothing else about the engine. Rules are found by their identifiers, and it is the first
one found that is amended, so that this makes sense for any list of rules.

Beside each of them stands the section of an engine that it is made by.
-/

namespace CampusRules

/-- What a section does to the registry. -/
inductive Amendment where
  | append (rule : Rule)
  | erase (id : String)
  | merge (id : String) (change : RuleChange)
  | count (id : String) (time : Instant)
  deriving DecidableEq

namespace Amendment

/-- A list of rules with the first rule of an identifier exchanged for what a function makes
of it. -/
def alterFirst (id : String) (alter : Rule → Rule) : List Rule → List Rule
  | [] => []
  | rule :: rest => if rule.id = id then alter rule :: rest else rule :: alterFirst id alter rest

/-- The registry after an amendment. -/
def apply (rules : List Rule) : Amendment → List Rule
  | append rule => rules ++ [rule]
  | erase id => rules.eraseP (·.id == id)
  | merge id change => alterFirst id (·.merge change) rules
  | count id time => alterFirst id (·.executed time) rules

/-- The rule that an amendment counts an execution of. -/
def countedId? : Amendment → Option String
  | count id _ => some id
  | _ => none

variable {id : String} {alter : Rule → Rule} {rules : List Rule}

/-- Where no rule has the identifier, none is altered. -/
theorem alterFirst_of_absent (absent : rules.findIdx? (·.id == id) = none) :
    alterFirst id alter rules = rules := by
  induction rules with
  | nil => rfl
  | cons rule rest inductionHypothesis =>
    rw [List.findIdx?_cons] at absent
    by_cases same : rule.id = id
    · simp [same] at absent
    · have later : rest.findIdx? (·.id == id) = none := by simpa [same] using absent
      simp only [alterFirst, if_neg same, inductionHypothesis later]

/-- The first rule of an identifier is altered at its position. -/
theorem modify_eq_alterFirst {index : Nat}
    (position : rules.findIdx? (·.id == id) = some index) :
    rules.modify index alter = alterFirst id alter rules := by
  induction rules generalizing index with
  | nil => cases position
  | cons rule rest inductionHypothesis =>
    rw [List.findIdx?_cons] at position
    by_cases same : rule.id = id
    · obtain rfl : 0 = index := by simpa [same] using position
      simp [alterFirst, same]
    · obtain ⟨later, found, rfl⟩ : ∃ later, rest.findIdx? (·.id == id) = some later ∧
          later + 1 = index := by simpa [same] using position
      simp [alterFirst, same, inductionHypothesis found]

/-- The first rule of an identifier is erased at its position. -/
theorem eraseIdx_eq_eraseP {index : Nat}
    (position : rules.findIdx? (·.id == id) = some index) :
    rules.eraseIdx index = rules.eraseP (·.id == id) := by
  rw [List.eraseP_eq_eraseIdx, position]

/-- Altering the first rule of an identifier leaves the others alone, and their order. -/
theorem forall₂_alterFirst {related : Rule → Rule → Prop} (same : ∀ rule, related rule rule)
    (altered : ∀ rule, rule.id = id → related rule (alter rule)) :
    List.Forall₂ related rules (alterFirst id alter rules) := by
  induction rules with
  | nil => exact .nil
  | cons rule rest inductionHypothesis =>
    by_cases named : rule.id = id
    · simp only [alterFirst, if_pos named]
      exact .cons (altered rule named) (List.forall₂_same.mpr fun other _ => same other)
    · simp only [alterFirst, if_neg named]
      exact .cons (same rule) inductionHypothesis

end Amendment

namespace Engine

open Amendment

variable {σ : Type}

/-- Counting an execution amends the registry, and does nothing else. -/
theorem bump_engine (id : String) (time : Instant) (engine : Engine σ) :
    (engine.bump id time).2 =
      { engine with rules := Amendment.apply engine.rules (.count id time) } := by
  unfold bump
  cases position : engine.position? id with
  | none => simp only [Amendment.apply, alterFirst_of_absent position]
  | some index => simp only [Amendment.apply, ← modify_eq_alterFirst position]

end Engine
end CampusRules
