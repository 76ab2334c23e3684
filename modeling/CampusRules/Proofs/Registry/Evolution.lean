import CampusRules.Engine.Event
import CampusRules.Proofs.Registry.WellFormed
import Mathlib.Data.List.Forall2

/-!
# How a registry evolves

The events that are sent tell what becomes of a registry. A rule that no event calls
removed stays: it keeps its identity, its place among the rules that stay, and what it
counts, but for the executions that events tell of. The rules that were added come
behind all of those.

`Evolution` compares the registries at both ends of any stretch of time with the
events in between, so stretches can be put one behind the other. Each of the four
changes that a registry can undergo is such a stretch.
-/

namespace CampusRules

namespace Event

/-- The rule that an event tells an execution of. -/
def executedId? : Event → Option String
  | .executed id _ => some id
  | _ => none

/-- The rules that events tell executions of, in order. -/
def executedIds (sent : List Event) : List String := sent.filterMap executedId?

/-- How many executions of a rule events tell of. -/
def executions (id : String) (sent : List Event) : Nat := (executedIds sent).count id

/-- Executions are told event by event. -/
theorem executedIds_append (first second : List Event) :
    executedIds (first ++ second) = executedIds first ++ executedIds second :=
  List.filterMap_append

/-- Executions are counted event by event. -/
theorem executions_append (id : String) (first second : List Event) :
    executions id (first ++ second) = executions id first + executions id second := by
  rw [executions, executedIds_append, List.count_append, executions, executions]

end Event

namespace Registry

/-- Whether events leave a rule registered. -/
def stays (sent : List Event) (rule : Rule) : Bool := !sent.contains (.removed rule.id)

/-- What becomes of a rule that stays registered while events are sent. Its record grows
by the executions that they tell of and is otherwise left alone. -/
structure Continues (sent : List Event) (old new : Rule) : Prop where
  id : new.id = old.id
  createdAt : new.createdAt = old.createdAt
  count : new.executionCount = old.executionCount + UInt64.ofNat (Event.executions old.id sent)
  stamp : Event.executions old.id sent = 0 → new.lastExecuted = old.lastExecuted

/-- What becomes of a registry while events are sent. -/
structure Evolution (sent : List Event) (before after : List Rule) : Prop where
  wellFormed : WellFormed after
  continued : ∃ survivors added, after = survivors ++ added ∧
    List.Forall₂ (Continues sent) (before.filter (stays sent)) survivors ∧
    ∀ rule ∈ added, Event.created rule.id ∈ sent

/-- A rule stays through two stretches if it stays through each of them. -/
theorem stays_append (first second : List Event) (rule : Rule) :
    stays (first ++ second) rule = (stays second rule && stays first rule) := by
  simp [stays, Bool.and_comm]

/-- What becomes of a rule through two stretches is what becomes of it through one and
then the other. -/
theorem Continues.trans {first second : List Event} {old middle new : Rule}
    (earlier : Continues first old middle) (later : Continues second middle new) :
    Continues (first ++ second) old new := by
  have same : Event.executions middle.id second = Event.executions old.id second := by
    rw [earlier.id]
  refine ⟨later.id.trans earlier.id, later.createdAt.trans earlier.createdAt, ?_, ?_⟩
  · rw [Event.executions_append, later.count, earlier.count, same, UInt64.ofNat_add,
      UInt64.add_assoc]
  · intro never
    rw [Event.executions_append] at never
    exact (later.stamp (by omega)).trans (earlier.stamp (by omega))

/-- Lists of rules continue through two stretches as their rules do. -/
theorem continues_trans {first second : List Event} {old middle new : List Rule}
    (earlier : List.Forall₂ (Continues first) old middle)
    (later : List.Forall₂ (Continues second) middle new) :
    List.Forall₂ (Continues (first ++ second)) old new := by
  induction earlier generalizing new with
  | nil =>
    cases later
    exact .nil
  | cons head _ inductionHypothesis =>
    cases later with
    | cons next rest => exact .cons (head.trans next) (inductionHypothesis rest)

/-- Of rules that continue, the same ones stay through what comes later. -/
theorem continues_filter {first : List Event} (second : List Event) {old middle : List Rule}
    (earlier : List.Forall₂ (Continues first) old middle) :
    List.Forall₂ (Continues first) (old.filter (stays second)) (middle.filter (stays second)) := by
  induction earlier with
  | nil => exact .nil
  | cons head rest inductionHypothesis =>
    rename_i rule next olds middles
    have same : stays second next = stays second rule := by
      unfold stays
      rw [head.id]
    rw [List.filter_cons, List.filter_cons, same]
    split
    · exact .cons head inductionHypothesis
    · exact inductionHypothesis

/-- What continues from two lists in a row are two lists in a row. -/
theorem continues_append {sent : List Event} {first second new : List Rule}
    (both : List.Forall₂ (Continues sent) (first ++ second) new) :
    ∃ left right, new = left ++ right ∧ List.Forall₂ (Continues sent) first left ∧
      List.Forall₂ (Continues sent) second right := by
  induction first generalizing new with
  | nil => exact ⟨[], new, rfl, .nil, both⟩
  | cons rule rest inductionHypothesis =>
    cases both with
    | cons head tail =>
      obtain ⟨left, right, rfl, lefts, rights⟩ := inductionHypothesis tail
      exact ⟨_ :: left, right, rfl, .cons head lefts, rights⟩

/-- Rules of one list continue as rules of another that have the same identifiers. -/
theorem created_of_continues {first second : List Event} {old new : List Rule}
    (later : List.Forall₂ (Continues second) (old.filter (stays second)) new)
    (created : ∀ rule ∈ old, Event.created rule.id ∈ first) :
    ∀ rule ∈ new, Event.created rule.id ∈ first := by
  have kept : ∀ rule ∈ old.filter (stays second), Event.created rule.id ∈ first :=
    fun rule member => created rule (List.mem_filter.mp member).1
  generalize old.filter (stays second) = remaining at later kept
  induction later with
  | nil => simp
  | cons head _ inductionHypothesis =>
    intro rule member
    rcases List.mem_cons.mp member with rfl | member
    · rw [head.id]
      exact kept _ List.mem_cons_self
    · exact inductionHypothesis (fun old member => kept old (List.mem_cons_of_mem _ member))
        rule member

namespace Evolution

/-- Two stretches in a row are one. The rules that survive both are the survivors of the
first among those of the second; whoever was added in either comes behind them. -/
theorem trans {first second : List Event} {before middle after : List Rule}
    (earlier : Evolution first before middle) (later : Evolution second middle after) :
    Evolution (first ++ second) before after := by
  obtain ⟨survivors, added, rfl, continued, created⟩ := earlier.continued
  obtain ⟨remaining, others, rfl, rest, createdLater⟩ := later.continued
  rw [List.filter_append] at rest
  obtain ⟨kept, newcomers, rfl, survived, joined⟩ := continues_append rest
  refine ⟨later.wellFormed, kept, newcomers ++ others, List.append_assoc .., ?_, ?_⟩
  · have filtered : before.filter (stays (first ++ second)) =
        (before.filter (stays first)).filter (stays second) := by
      rw [List.filter_filter]
      exact List.filter_congr fun rule _ => stays_append first second rule
    rw [filtered]
    exact continues_trans (continues_filter second continued) survived
  · intro rule member
    rcases List.mem_append.mp member with member | member
    · exact List.mem_append_left _ (created_of_continues joined created rule member)
    · exact List.mem_append_right _ (createdLater rule member)

/-- Rules that all continue, with none removed, are an evolution. -/
theorem of_continues {sent : List Event} {before after : List Rule}
    (wellFormed : WellFormed after) (stay : ∀ rule ∈ before, stays sent rule = true)
    (continued : List.Forall₂ (Continues sent) before after) : Evolution sent before after := by
  refine ⟨wellFormed, after, [], (List.append_nil after).symm, ?_, by simp⟩
  rw [List.filter_eq_self.mpr stay]
  exact continued

/-- Events that tell neither of removals nor of executions of the rules that there are
leave room for no change at all. -/
theorem of_unchanged {rules : List Rule} {sent : List Event} (wellFormed : WellFormed rules)
    (stay : ∀ rule ∈ rules, stays sent rule = true)
    (idle : ∀ rule ∈ rules, Event.executions rule.id sent = 0) : Evolution sent rules rules := by
  apply of_continues wellFormed stay
  apply List.forall₂_same.mpr
  intro rule member
  exact ⟨rfl, rfl, by simp [idle rule member], fun _ => rfl⟩

/-- Nothing happens while nothing is sent. -/
theorem refl {rules : List Rule} (wellFormed : WellFormed rules) : Evolution [] rules rules :=
  of_unchanged wellFormed (fun _ _ => rfl) (fun _ _ => rfl)

/-- A rule that has never run is added under a new identifier. -/
theorem add {rules : List Rule} {rule : Rule} (wellFormed : WellFormed rules)
    (new : ∀ other ∈ rules, other.id ≠ rule.id) (named : rule.id ≠ "")
    (valid : rule.isValid = true) (fresh : rule.executionCount = 0) :
    Evolution [.created rule.id] rules (rules ++ [rule]) := by
  have unchanged : Evolution [.created rule.id] rules rules :=
    of_unchanged wellFormed (fun _ _ => by simp [stays]) (fun _ _ => rfl)
  obtain ⟨survivors, added, same, continued, created⟩ := unchanged.continued
  refine ⟨wellFormed.append new named valid fresh, survivors, added ++ [rule], ?_, continued, ?_⟩
  · rw [← List.append_assoc, ← same]
  · intro other member
    rcases List.mem_append.mp member with member | member
    · exact created other member
    · rw [List.mem_singleton.mp member]
      exact List.mem_singleton_self _

/-- The rule with an identifier is removed. -/
theorem remove {rules : List Rule} (wellFormed : WellFormed rules) (id : String) :
    Evolution [.removed id] rules (rules.filter (·.id != id)) := by
  have kept : stays [.removed id] = fun rule : Rule => rule.id != id := by
    funext rule
    by_cases same : rule.id = id <;> simp [stays, same]
  refine ⟨wellFormed.filter _, _, [], (List.append_nil _).symm, ?_, by simp⟩
  rw [kept]
  apply List.forall₂_same.mpr
  intro rule _
  have idle : Event.executions rule.id [.removed id] = 0 := rfl
  exact ⟨rfl, rfl, by simp [idle], fun _ => rfl⟩

/-- Rules continue as what an adjustment makes of them. -/
theorem forall₂_adjust {rules : List Rule} {sent : List Event} (id : String)
    (change : Rule → Rule) (others : ∀ rule ∈ rules, rule.id ≠ id → Continues sent rule rule)
    (changed : ∀ rule ∈ rules, rule.id = id → Continues sent rule (change rule)) :
    List.Forall₂ (Continues sent) rules (adjust id change rules) := by
  apply List.forall₂_map_right_iff.mpr
  apply List.forall₂_same.mpr
  intro rule member
  by_cases same : rule.id = id
  · simpa [same] using changed rule member same
  · simpa [same] using others rule member same

/-- A change is merged into the rule with an identifier. Whatever it carries, it does
not reach the record of executions. -/
theorem update {rules : List Rule} (wellFormed : WellFormed rules) (id : String)
    (change : RuleChange)
    (valid : ∀ rule ∈ rules, rule.id = id → (rule.merge change).isValid = true) :
    Evolution [.updated id] rules (adjust id (·.merge change) rules) := by
  apply of_continues (wellFormed.merge id change valid) (fun _ _ => by simp [stays])
  have idle (rule : Rule) : Event.executions rule.id [.updated id] = 0 := rfl
  apply forall₂_adjust
  · intro rule _ _
    exact ⟨rfl, rfl, by simp [idle], fun _ => rfl⟩
  · intro rule _ _
    exact ⟨rfl, rfl, by simp [idle, Rule.merge], fun _ => rfl⟩

/-- An execution of the rule with an identifier is counted and told. -/
theorem execute {rules : List Rule} (wellFormed : WellFormed rules) (id : String)
    (time : Instant) (count : UInt64) :
    Evolution [.executed id count] rules (adjust id (·.executed time) rules) := by
  apply of_continues (wellFormed.executed id time) (fun _ _ => by simp [stays])
  apply forall₂_adjust
  · intro rule _ different
    have idle : Event.executions rule.id [.executed id count] = 0 := by
      simp [Event.executions, Event.executedIds, Event.executedId?, Ne.symm different]
    exact ⟨rfl, rfl, by simp [idle], fun _ => rfl⟩
  · intro rule _ same
    have once : Event.executions rule.id [.executed id count] = 1 := by
      simp [Event.executions, Event.executedIds, Event.executedId?, same]
    exact ⟨rfl, rfl, by simp [once, Rule.executed], by simp [once]⟩

end Evolution
end Registry
end CampusRules
