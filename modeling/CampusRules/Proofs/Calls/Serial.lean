import CampusRules.Proofs.Calls.Record
import CampusRules.Proofs.Calls.Tally

/-!
# One pass after another

A pass that nothing comes between hands over what the rules send that are due, and counts those
of them that run. Where executions are counted before it selects its rules, the pass is the same
if this makes no rule due or not that would be otherwise.
-/

namespace CampusRules

open Behaviour Registry

/-- A rule that is due is on a schedule. -/
theorem Rule.isScheduled_of_isDue {rule : Rule} {now : Reading} (due : rule.isDue now = true) :
    rule.isScheduled = true := by
  cases trigger : rule.trigger with
  | schedule => simp [isScheduled, trigger]
  | event | condition => simp [isDue, trigger] at due

/-- How a rule is registered once executions of some rules are counted. -/
def Rule.credited (owed : List String) (time : Instant) (rule : Rule) : Rule :=
  if rule.id ∈ owed then rule.executed time else rule

/-- Counting an execution changes nothing about a rule but its record. -/
theorem Rule.credited_body (owed : List String) (time : Instant) (rule : Rule) :
    (rule.credited owed time).body = rule.body := by
  unfold Rule.credited
  split <;> rfl

namespace Engine

variable (reply : Handoff → Except Failure Reply) (assisted : Bool) (now : Reading)

/-- The identifiers of the rules that a pass selects and that then run, in their order. -/
def running (engine : Engine (List Handoff)) : List String :=
  ((engine.dueRules now).filter
    (·.runs reply assisted (scheduleContext now.instant))).map Rule.id

/-- The messages that a pass hands over, in their order. -/
def sending (engine : Engine (List Handoff)) : List Handoff :=
  (engine.dueRules now).flatMap (·.sends reply assisted (scheduleContext now.instant))

variable {reply assisted now} {engine : Engine (List Handoff)}

/-- A pass runs no rule twice. -/
theorem running_nodup (distinct : Distinct engine.rules) :
    (engine.running reply assisted now).Nodup :=
  (distinct.filter _).filter _

/-- A registered rule runs in a pass if it is active and due, and succeeds at its turn. -/
theorem mem_running {rule : Rule} (distinct : Distinct engine.rules)
    (member : rule ∈ engine.rules) :
    rule.id ∈ engine.running reply assisted now ↔ rule.isActive = true ∧ rule.isDue now = true ∧
      rule.runs reply assisted (scheduleContext now.instant) = true := by
  constructor
  · intro runs
    obtain ⟨other, selected, named⟩ := List.mem_map.mp runs
    obtain ⟨due, succeeds⟩ := List.mem_filter.mp selected
    obtain ⟨present, eligible⟩ := List.mem_filter.mp due
    obtain rfl : other = rule := distinct.unique present member named
    simp only [Bool.and_eq_true] at eligible
    exact ⟨eligible.1.1, eligible.2, succeeds⟩
  · rintro ⟨active, due, succeeds⟩
    refine List.mem_map_of_mem (List.mem_filter.mpr ⟨List.mem_filter.mpr ⟨member, ?_⟩, succeeds⟩)
    simp [active, due, Rule.isScheduled_of_isDue due]

section

variable {owed : List String} {time : Instant} {after : Engine (List Handoff)}
  (counts : after.rules = credited owed time engine.rules)
include counts

/-- Whether a rule runs in a pass once executions are counted is a matter of whether it is due
then. -/
theorem mem_running_credited {rule : Rule} (distinct : Distinct engine.rules)
    (member : rule ∈ engine.rules) :
    rule.id ∈ after.running reply assisted now ↔ rule.isActive = true ∧
      (rule.credited owed time).isDue now = true ∧
      rule.runs reply assisted (scheduleContext now.instant) = true := by
  have registered : rule.credited owed time ∈ after.rules := by
    rw [counts]
    exact List.mem_map_of_mem member
  have apart : Distinct after.rules := counts ▸ distinct.credited owed time
  obtain ⟨named, active, _, runs⟩ := Rule.same_of_body reply assisted
    (scheduleContext now.instant) (Rule.credited_body owed time rule)
  rw [← named, mem_running apart registered, active, runs]

/-- A pass runs the same once executions of active rules are counted if and only if that makes no
rule due or not that it would run or not run otherwise. -/
theorem running_credited_iff (distinct : Distinct engine.rules)
    (active : ∀ rule ∈ engine.rules, rule.id ∈ owed → rule.isActive = true) :
    (∀ rule ∈ engine.rules, rule.id ∈ engine.running reply assisted now ↔
        rule.id ∈ after.running reply assisted now) ↔
      ∀ rule ∈ engine.rules, rule.id ∈ owed →
        rule.runs reply assisted (scheduleContext now.instant) = true →
          (rule.executed time).isDue now = rule.isDue now := by
  refine forall₂_congr fun rule member => ?_
  rw [mem_running distinct member, mem_running_credited counts distinct member]
  by_cases owes : rule.id ∈ owed
  · cases runs : rule.runs reply assisted (scheduleContext now.instant) with
    | false => simp only [Bool.false_eq_true, and_false, IsEmpty.forall_iff, implies_true]
    | true =>
      simp only [Rule.credited, active rule member owes, owes, if_true, true_and, and_true,
        forall_const]
      exact Iff.comm.trans Bool.eq_iff_iff.symm
  · simp only [Rule.credited, owes, if_false, IsEmpty.forall_iff]

/-- Where counting executions makes no rule due or not that would be otherwise, a pass hands over
the same. -/
theorem sending_credited (same : ∀ rule ∈ engine.rules, rule.id ∈ owed →
    (rule.executed time).isDue now = rule.isDue now) :
    after.sending reply assisted now = engine.sending reply assisted now := by
  have selected : after.dueRules now = (engine.dueRules now).map (Rule.credited owed time) := by
    rw [dueRules, counts, Registry.credited, List.filter_map]
    refine congrArg (List.map (Rule.credited owed time)) (List.filter_congr fun rule member => ?_)
    by_cases ran : rule.id ∈ owed
    · have kept : (rule.executed time).isActive = rule.isActive ∧
          (rule.executed time).isScheduled = rule.isScheduled := ⟨rfl, rfl⟩
      simp only [Function.comp, if_pos ran, kept, same rule member ran]
    · simp only [Function.comp, if_neg ran]
  rw [sending, sending, selected, List.flatMap_map]
  congr 1
  funext rule
  exact (Rule.same_of_body reply assisted _ (Rule.credited_body owed time rule)).2.2.1

end

end Engine

section

variable {reply : Handoff → Except Failure Reply} {collaborators : Collaborators (List Handoff)}
  (behaves : collaborators.Behaves (recording reply))

include behaves

/-- A pass that nothing comes between hands over and counts what its selection says. -/
theorem Engine.runSchedule_account (now : Reading) (engine : Engine (List Handoff))
    (distinct : Distinct engine.rules) :
    (engine.runSchedule collaborators now).2.outside =
        engine.outside ++ engine.sending reply collaborators.assisted now ∧
      (engine.runSchedule collaborators now).2.rules =
        ((engine.running reply collaborators.assisted now).map
          (Amendment.count · now.instant)).foldl Amendment.apply engine.rules := by
  obtain ⟨deeds, carries, outside, rules⟩ := runSchedule_carries behaves now engine distinct
  exact ⟨outside.trans (congrArg _ carries.handoffs), rules.trans (by rw [carries.amendments]; rfl)⟩

/-- Two passes one after the other hand over and count what their selections say. -/
theorem Engine.serial_account (first second : Reading) (engine : Engine (List Handoff))
    (distinct : Distinct engine.rules) :
    let after := (engine.runSchedule collaborators first).2
    let last := (after.runSchedule collaborators second).2
    last.outside = engine.outside ++ (engine.sending reply collaborators.assisted first ++
        after.sending reply collaborators.assisted second) ∧
      last.rules.map Rule.unstamped = engine.rules.map fun rule => rule.tallied
        ((engine.running reply collaborators.assisted first ++
          after.running reply collaborators.assisted second).count rule.id) := by
  intro after last
  obtain ⟨firstOutside, firstRules⟩ := runSchedule_account behaves first engine distinct
  have apart : Distinct after.rules := by
    rw [firstRules, Amendment.foldl_count distinct (running_nodup distinct)]
    exact distinct.credited _ _
  obtain ⟨outside, rules⟩ := runSchedule_account behaves second after apart
  constructor
  · rw [outside, firstOutside, List.append_assoc]
  · rw [rules, firstRules, ← List.foldl_append]
    exact Amendment.foldl_of_perm first.instant second.instant (.refl _) distinct

end

end CampusRules
