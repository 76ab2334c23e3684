import CampusRules.Rule.Validity
import CampusRules.Engine.Basic
import Mathlib.Data.List.Nodup

/-!
# Well-formed registries

A registry is a list of rules. It is well formed when the identifiers in it are
distinct and not empty, every rule is valid, and every rule that counts an execution
tells when it last ran. With distinct identifiers, an operation at the position of an
identifier is an operation on the one rule that has it: modifying there is `adjust`,
and erasing there leaves the rules with other identifiers.
-/

namespace CampusRules.Registry

/-- No two rules of a registry have one identifier. -/
def Distinct (rules : List Rule) : Prop := (rules.map Rule.id).Nodup

/-- What every registry satisfies that was not tampered with. -/
structure WellFormed (rules : List Rule) : Prop where
  distinct : Distinct rules
  named : ∀ rule ∈ rules, rule.id ≠ ""
  valid : ∀ rule ∈ rules, rule.isValid = true
  stamped : ∀ rule ∈ rules, 0 < rule.executionCount → rule.lastExecuted.isSome = true

/-- A registry in which the rule with an identifier is exchanged for what a function
makes of it. -/
def adjust (id : String) (change : Rule → Rule) (rules : List Rule) : List Rule :=
  rules.map fun rule => if rule.id = id then change rule else rule

/-- Adjusting an identifier that no rule has does nothing. -/
theorem adjust_of_absent (id : String) (change : Rule → Rule) (rules : List Rule)
    (absent : ∀ rule ∈ rules, rule.id ≠ id) : adjust id change rules = rules := by
  have same : ∀ rule ∈ rules, (if rule.id = id then change rule else rule) = rule := by
    intro rule member
    exact if_neg (absent rule member)
  exact (List.map_congr_left same).trans (List.map_id' rules)

/-- What holds of all rules, and of what a function makes of them, holds of all rules
after an adjustment. -/
theorem forall_mem_adjust {property : Rule → Prop} {id : String} {change : Rule → Rule}
    {rules : List Rule} (before : ∀ rule ∈ rules, property rule)
    (changed : ∀ rule ∈ rules, rule.id = id → property (change rule)) :
    ∀ rule ∈ adjust id change rules, property rule := by
  intro rule member
  obtain ⟨old, present, rfl⟩ := List.mem_map.mp member
  by_cases same : old.id = id
  · simpa [same] using changed old present same
  · simpa [same] using before old present

/-- An adjustment that leaves identifiers alone keeps their list. -/
theorem map_id_adjust (id : String) (change : Rule → Rule) (rules : List Rule)
    (keeps : ∀ rule, (change rule).id = rule.id) :
    (adjust id change rules).map Rule.id = rules.map Rule.id := by
  rw [adjust, List.map_map]
  apply List.map_congr_left
  intro rule _
  by_cases same : rule.id = id
  · simpa [same] using (keeps rule).trans same
  · simp [same]

/-- A rule with another identifier is still there after an adjustment. -/
theorem mem_adjust_of_ne {id : String} {change : Rule → Rule} {rules : List Rule} {rule : Rule}
    (different : rule.id ≠ id) (member : rule ∈ rules) : rule ∈ adjust id change rules :=
  List.mem_map.mpr ⟨rule, member, if_neg different⟩

/-- An adjustment that leaves identifiers alone leaves them distinct. -/
theorem Distinct.adjust {rules : List Rule} (distinct : Distinct rules) (id : String)
    {change : Rule → Rule} (keeps : ∀ rule, (change rule).id = rule.id) :
    Distinct (Registry.adjust id change rules) := by
  rw [Distinct, map_id_adjust id change rules keeps]
  exact distinct

/-- The rules behind the first of a registry with distinct identifiers have other
identifiers than that. -/
theorem Distinct.head_ne {first : Rule} {rest : List Rule} (distinct : Distinct (first :: rest)) :
    ∀ rule ∈ rest, rule.id ≠ first.id := by
  intro rule member same
  exact (List.nodup_cons.mp distinct).1 (List.mem_map.mpr ⟨rule, member, same⟩)

/-- What follows the first rule has distinct identifiers, too. -/
theorem Distinct.tail {first : Rule} {rest : List Rule} (distinct : Distinct (first :: rest)) :
    Distinct rest :=
  (List.nodup_cons.mp distinct).2

/-- A rule under a new identifier leaves identifiers distinct. -/
theorem Distinct.append {rules : List Rule} (distinct : Distinct rules) {rule : Rule}
    (new : ∀ other ∈ rules, other.id ≠ rule.id) : Distinct (rules ++ [rule]) := by
  have apart : ∀ other ∈ rules.map Rule.id, other ≠ rule.id := by
    intro other member
    obtain ⟨present, belongs, rfl⟩ := List.mem_map.mp member
    exact new present belongs
  rw [Distinct, List.map_append, List.nodup_append]
  refine ⟨distinct, List.nodup_singleton _, ?_⟩
  intro other member last single
  rw [List.mem_singleton.mp single]
  exact apart other member

/-- Some of the rules of a registry have distinct identifiers, too. -/
theorem Distinct.filter {rules : List Rule} (distinct : Distinct rules) (keep : Rule → Bool) :
    Distinct (rules.filter keep) :=
  distinct.sublist (List.filter_sublist.map Rule.id)

/-- Two rules of one registry under one identifier are one rule. -/
theorem Distinct.unique {rules : List Rule} (distinct : Distinct rules) {first second : Rule}
    (member : first ∈ rules) (other : second ∈ rules) (same : first.id = second.id) :
    first = second :=
  List.inj_on_of_nodup_map distinct member other same

/-- Modifying at the position of an identifier adjusts the rule that has it. Behind that
position the identifier does not occur again. -/
theorem modify_findIdx (rules : List Rule) (id : String) (index : Nat) (change : Rule → Rule)
    (distinct : Distinct rules) (found : rules.findIdx? (·.id == id) = some index) :
    rules.modify index change = adjust id change rules := by
  induction rules generalizing index with
  | nil => simp at found
  | cons first rest inductionHypothesis =>
    by_cases same : first.id = id
    · have start : index = 0 := by simpa [List.findIdx?_cons, same] using found.symm
      subst start
      have unchanged : adjust id change rest = rest :=
        adjust_of_absent id change rest fun rule member => same ▸ distinct.head_ne rule member
      simpa [adjust, same] using unchanged.symm
    · obtain ⟨before, later, rfl⟩ : ∃ before, rest.findIdx? (·.id == id) = some before ∧
          before + 1 = index := by
        simpa [List.findIdx?_cons, same] using found
      simpa [adjust, same] using inductionHypothesis before distinct.tail later

/-- Erasing at the position of an identifier leaves the rules that do not have it. -/
theorem eraseIdx_findIdx (rules : List Rule) (id : String) (index : Nat)
    (distinct : Distinct rules) (found : rules.findIdx? (·.id == id) = some index) :
    rules.eraseIdx index = rules.filter (·.id != id) := by
  induction rules generalizing index with
  | nil => simp at found
  | cons first rest inductionHypothesis =>
    by_cases same : first.id = id
    · have start : index = 0 := by simpa [List.findIdx?_cons, same] using found.symm
      subst start
      have others : rest.filter (·.id != id) = rest := by
        apply List.filter_eq_self.mpr
        intro rule member
        simpa using same ▸ distinct.head_ne rule member
      simp [same, others]
    · obtain ⟨before, later, rfl⟩ : ∃ before, rest.findIdx? (·.id == id) = some before ∧
          before + 1 = index := by
        simpa [List.findIdx?_cons, same] using found
      simpa [same] using inductionHypothesis before distinct.tail later

/-- Without a position for an identifier, no rule has it. -/
theorem ne_of_findIdx_none {rules : List Rule} {id : String}
    (missing : rules.findIdx? (·.id == id) = none) : ∀ rule ∈ rules, rule.id ≠ id := by
  intro rule member
  simpa using List.findIdx?_eq_none_iff.mp missing rule member

/-- What is put at the position of an identifier, under that identifier, is found by it. -/
theorem find?_set {rules : List Rule} {id : String} {index : Nat} {rule : Rule}
    (position : rules.findIdx? (·.id == id) = some index) (named : rule.id = id) :
    (rules.set index rule).find? (·.id == id) = some rule := by
  obtain ⟨inside, _, before⟩ := List.findIdx?_eq_some_iff_getElem.mp position
  have placed : index < (rules.set index rule).length := by simpa using inside
  rw [List.find?_eq_some_iff_getElem]
  refine ⟨by simpa using named, index, placed, List.getElem_set_self placed, ?_⟩
  intro earlier isBefore
  rw [List.getElem_set_ne (Nat.ne_of_gt isBefore)]
  simpa using before earlier isBefore

/-- What is taken out of a registry of distinct identifiers is not found any more. -/
theorem find?_eraseIdx {rules : List Rule} {id : String} {index : Nat}
    (distinct : Distinct rules) (position : rules.findIdx? (·.id == id) = some index) :
    (rules.eraseIdx index).find? (·.id == id) = none := by
  rw [eraseIdx_findIdx rules id index distinct position]
  simp

namespace WellFormed

/-- The empty registry is well formed. -/
theorem nil : WellFormed [] := by
  refine ⟨List.nodup_nil, ?_, ?_, ?_⟩ <;> simp

/-- A valid rule that has never run, under a new identifier, may be added. -/
theorem append {rules : List Rule} {rule : Rule} (wellFormed : WellFormed rules)
    (new : ∀ other ∈ rules, other.id ≠ rule.id) (named : rule.id ≠ "")
    (valid : rule.isValid = true) (fresh : rule.executionCount = 0) :
    WellFormed (rules ++ [rule]) := by
  constructor
  case distinct => exact wellFormed.distinct.append new
  case named => exact List.forall_mem_append.mpr ⟨wellFormed.named, by simpa using named⟩
  case valid => exact List.forall_mem_append.mpr ⟨wellFormed.valid, by simpa using valid⟩
  case stamped => exact List.forall_mem_append.mpr ⟨wellFormed.stamped, by simp [fresh]⟩

/-- Rules may be taken out. -/
theorem filter {rules : List Rule} (wellFormed : WellFormed rules) (keep : Rule → Bool) :
    WellFormed (rules.filter keep) := by
  have member {rule : Rule} (kept : rule ∈ rules.filter keep) : rule ∈ rules :=
    (List.mem_filter.mp kept).1
  constructor
  case distinct => exact wellFormed.distinct.filter keep
  case named => exact fun rule kept => wellFormed.named rule (member kept)
  case valid => exact fun rule kept => wellFormed.valid rule (member kept)
  case stamped => exact fun rule kept => wellFormed.stamped rule (member kept)

/-- A rule may be changed in a way that keeps its identifier, its validity, and the
time next to its count. -/
theorem adjust {rules : List Rule} (wellFormed : WellFormed rules) (id : String)
    (change : Rule → Rule) (keeps : ∀ rule, (change rule).id = rule.id)
    (valid : ∀ rule ∈ rules, rule.id = id → (change rule).isValid = true)
    (stamped : ∀ rule ∈ rules, rule.id = id → 0 < (change rule).executionCount →
      (change rule).lastExecuted.isSome = true) :
    WellFormed (Registry.adjust id change rules) := by
  constructor
  case distinct => exact wellFormed.distinct.adjust id keeps
  case named =>
    apply forall_mem_adjust wellFormed.named
    intro rule member _
    rw [keeps rule]
    exact wellFormed.named rule member
  case valid => exact forall_mem_adjust wellFormed.valid valid
  case stamped => exact forall_mem_adjust wellFormed.stamped stamped

/-- Merging a change that leaves a valid rule keeps a registry well formed. -/
theorem merge {rules : List Rule} (wellFormed : WellFormed rules) (id : String)
    (change : RuleChange)
    (valid : ∀ rule ∈ rules, rule.id = id → (rule.merge change).isValid = true) :
    WellFormed (Registry.adjust id (·.merge change) rules) := by
  refine wellFormed.adjust id (·.merge change) (fun _ => rfl) valid ?_
  intro rule member _ counted
  exact wellFormed.stamped rule member counted

/-- Counting an execution with its time keeps a registry well formed. -/
theorem executed {rules : List Rule} (wellFormed : WellFormed rules) (id : String)
    (time : Instant) : WellFormed (Registry.adjust id (·.executed time) rules) := by
  refine wellFormed.adjust id (·.executed time) (fun _ => rfl) ?_ ?_
  · intro rule member _
    exact wellFormed.valid rule member
  · intro _ _ _ _
    rfl

end WellFormed
end CampusRules.Registry
