import CampusRules.Proofs.Calls.Effect

/-!
# How often executions are counted

Counting an execution adds one to the count of a rule and replaces its time. The times depend on
the order in which executions are counted, but the counts do not: apart from the times, all that
matters for a rule is how many of its executions are counted.
-/

namespace CampusRules

open Registry

namespace Amendment

/-- With distinct identifiers, altering the first rule of one is adjusting it. -/
theorem alterFirst_eq_adjust {id : String} {alter : Rule → Rule} {rules : List Rule}
    (distinct : Distinct rules) : alterFirst id alter rules = adjust id alter rules := by
  cases position : rules.findIdx? (·.id == id) with
  | none =>
    rw [alterFirst_of_absent position, adjust_of_absent id alter rules
      (ne_of_findIdx_none position)]
  | some index =>
    rw [← modify_eq_alterFirst position, modify_findIdx rules id index alter distinct position]

/-- Executions at one time that are counted one after the other are credited together. -/
theorem foldl_count {time : Instant} {ids : List String} {rules : List Rule}
    (distinct : Distinct rules) (once : ids.Nodup) :
    (ids.map (count · time)).foldl apply rules = credited ids time rules := by
  induction ids generalizing rules with
  | nil => simp [credited]
  | cons id rest inductionHypothesis =>
    obtain ⟨absent, onceMore⟩ := List.nodup_cons.mp once
    have first : apply rules (count id time) = adjust id (·.executed time) rules :=
      alterFirst_eq_adjust distinct
    have after : Distinct (adjust id (·.executed time) rules) := distinct.adjust id fun _ => rfl
    rw [List.map_cons, List.foldl_cons, first, inductionHypothesis after onceMore,
      credited_adjust id rest time rules absent]

end Amendment

/-- A rule without the time of its last execution. -/
def Rule.unstamped (rule : Rule) : Rule := { rule with lastExecuted := none }

/-- A rule with some more executions, without the time of the last one. -/
def Rule.tallied (times : Nat) (rule : Rule) : Rule :=
  { rule with executionCount := rule.executionCount + UInt64.ofNat times, lastExecuted := none }

/-- An execution and then some more are one more than these. -/
theorem Rule.tallied_executed (times : Nat) (time : Instant) (rule : Rule) :
    (rule.executed time).tallied times = rule.tallied (times + 1) := by
  have more : rule.executionCount + 1 + UInt64.ofNat times =
      rule.executionCount + UInt64.ofNat (times + 1) := by
    rw [UInt64.ofNat_add, UInt64.add_assoc]
    congr 1
    exact UInt64.add_comm _ _
  simp only [Rule.tallied, Rule.executed, more]

/-- Apart from the times, it only matters for a rule how often its executions are counted. -/
theorem Amendment.foldl_unstamped {amendments : List Amendment} {rules : List Rule}
    (counts : ∀ amendment ∈ amendments, ∃ id time, amendment = .count id time)
    (distinct : Distinct rules) :
    (amendments.foldl Amendment.apply rules).map Rule.unstamped = rules.map fun rule =>
      rule.tallied ((amendments.filterMap Amendment.countedId?).count rule.id) := by
  induction amendments generalizing rules with
  | nil =>
    apply List.map_congr_left
    intro rule _
    simp [Rule.unstamped, Rule.tallied]
  | cons amendment rest inductionHypothesis =>
    obtain ⟨id, time, rfl⟩ := counts amendment List.mem_cons_self
    have first : apply rules (count id time) = adjust id (·.executed time) rules :=
      alterFirst_eq_adjust distinct
    have after : Distinct (adjust id (·.executed time) rules) := distinct.adjust id fun _ => rfl
    rw [List.foldl_cons, first, inductionHypothesis
      (fun other member => counts other (List.mem_cons_of_mem _ member)) after, adjust,
      List.map_map]
    apply List.map_congr_left
    intro rule _
    have ids : (count id time :: rest).filterMap countedId? = id :: rest.filterMap countedId? := rfl
    by_cases same : rule.id = id
    · have kept : (rule.executed time).id = id := same
      simp only [Function.comp, ids, same, if_true, kept, Rule.tallied_executed,
        List.count_cons_self]
    · have other : id ≠ rule.id := Ne.symm same
      simp only [Function.comp, if_neg same, ids, List.count_cons_of_ne other]

/-- The identifiers of the rules whose executions are counted in sections, in order. -/
def Section.countedIds {σ : Type} (sections : List (Section σ)) : List String :=
  (Deed.amendments (Section.allDeeds sections)).filterMap Amendment.countedId?

/-- Executions that are counted at one time are the ones that were to be counted. -/
theorem Amendment.countedIds_count (ids : List String) (time : Instant) :
    (ids.map (count · time)).filterMap countedId? = ids := by
  rw [List.filterMap_map]
  exact List.filterMap_some

/-- Two rows of executions are counted one by one, whatever their order and their times. -/
theorem Amendment.foldl_of_perm {amendments : List Amendment} {rules : List Rule}
    {early late : List String} (first second : Instant)
    (perm : amendments.Perm (early.map (count · first) ++ late.map (count · second)))
    (distinct : Distinct rules) :
    (amendments.foldl apply rules).map Rule.unstamped =
      rules.map fun rule => rule.tallied ((early ++ late).count rule.id) := by
  have ids := perm.filterMap countedId?
  rw [List.filterMap_append, countedIds_count, countedIds_count] at ids
  have counts : ∀ amendment ∈ amendments, ∃ id time, amendment = count id time := by
    intro amendment member
    rcases List.mem_append.mp (perm.mem_iff.mp member) with inside | inside
    · obtain ⟨id, _, rfl⟩ := List.mem_map.mp inside
      exact ⟨id, first, rfl⟩
    · obtain ⟨id, _, rfl⟩ := List.mem_map.mp inside
      exact ⟨id, second, rfl⟩
  rw [foldl_unstamped counts distinct]
  apply List.map_congr_left
  intro rule _
  rw [ids.count_eq]

/-- Tallies tell apart which of two passes counts a rule, where none counts a rule twice. -/
theorem Rule.tallied_inj {rule : Rule} {before few many : List String} (onceBefore : before.Nodup)
    (onceFew : few.Nodup) (onceMany : many.Nodup) :
    rule.tallied ((before ++ few).count rule.id) = rule.tallied ((before ++ many).count rule.id) ↔
      (rule.id ∈ few ↔ rule.id ∈ many) := by
  have counts {ids : List String} (once : ids.Nodup) :
      ids.count rule.id = if rule.id ∈ ids then 1 else 0 := once.count
  rw [List.count_append, List.count_append, counts onceBefore, counts onceFew, counts onceMany]
  have small {times : Nat} (little : times ≤ 2) : (UInt64.ofNat times).toNat = times :=
    UInt64.toNat_ofNat_of_lt' (Nat.lt_of_le_of_lt little (by decide))
  constructor
  · intro same
    have added := congrArg Rule.executionCount same
    have numbers := congrArg UInt64.toNat ((UInt64.add_right_inj _).mp added)
    rw [small (by split <;> split <;> omega), small (by split <;> split <;> omega)] at numbers
    by_cases inFew : rule.id ∈ few <;> by_cases inMany : rule.id ∈ many <;>
      simp_all
  · intro same
    simp only [same]

end CampusRules
