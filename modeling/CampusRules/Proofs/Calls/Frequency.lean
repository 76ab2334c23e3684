import CampusRules.Proofs.Calls.Addressing
import CampusRules.Proofs.Calls.Serial

/-!
# Schedules of a frequency that nothing is known of

Such a rule is valid, and may be registered, changed and stored. The gate of a schedule asks for
the frequency only once a rule has a time of its last execution; without one, the rule is due. So a
pass selects an active rule of an unknown frequency as long as it has never run, and never again
after that, whatever else happens to it while it is registered.
-/

namespace CampusRules

open Registry

/-- Whether a rule is on a schedule whose frequency is none of those that are known. -/
def Rule.hasUnknownFrequency (rule : Rule) : Bool :=
  match rule.trigger with
  | .schedule frequency _ _ _ => !frequency.isKnown
  | _ => false

/-- A rule of an unknown frequency is due as long as it has never run, and never after that. -/
theorem Rule.isDue_of_unknown {rule : Rule} (unknown : rule.hasUnknownFrequency = true)
    (now : Reading) : rule.isDue now = true ↔ rule.lastExecuted = none := by
  unfold hasUnknownFrequency at unknown
  unfold isDue
  cases trigger : rule.trigger with
  | event | condition =>
    rw [trigger] at unknown
    cases unknown
  | schedule frequency =>
    rw [trigger] at unknown
    cases frequency with
    | daily | weekly | monthly => cases unknown
    | other name => cases rule.lastExecuted <;> simp [Frequency.hasElapsed]

variable {σ : Type}

/-- A pass selects a registered rule of an unknown frequency exactly if it is active and has never
run. -/
theorem Engine.mem_dueRules_of_unknown {engine : Engine σ} {rule : Rule}
    (member : rule ∈ engine.rules) (unknown : rule.hasUnknownFrequency = true) (now : Reading) :
    rule ∈ engine.dueRules now ↔ rule.isActive = true ∧ rule.lastExecuted = none := by
  have due := Rule.isDue_of_unknown unknown now
  rw [dueRules, List.mem_filter]
  constructor
  · rintro ⟨_, eligible⟩
    simp only [Bool.and_eq_true] at eligible
    exact ⟨eligible.1.1, due.mp eligible.2⟩
  · rintro ⟨active, never⟩
    have eligible := due.mpr never
    refine ⟨member, ?_⟩
    simp [active, eligible, Rule.isScheduled_of_isDue eligible]

variable {collaborators : Collaborators σ}

/-- A pass on a schedule that has selected its rules: what it found then, at which reading of a
clock, and that it gives turns to none but these. -/
structure Selection (now? : Option Reading) (sections : List (Section σ)) (chosen : Section σ)
    (now : Reading) : Prop where
  member : chosen ∈ sections
  given : ∀ reading, now? = some reading → now = reading
  turns : (Section.turns sections).Sublist ((chosen.found.dueRules now).map Rule.id)

/-- A pass on a schedule has done nothing yet, or has selected the rules that are due. -/
theorem Course.selects {now? : Option Reading} {sections : List (Section σ)} {last : Call}
    (course : Course collaborators (.asked (.schedule now?)) sections last) :
    (∀ taken ∈ sections, taken.deeds = []) ∨
      ∃ chosen now, Selection now? sections chosen now := by
  rcases course.divided rfl with ⟨_, silent⟩ | ⟨opening, chosen, attempts, closing, divided⟩
  · exact .inl silent
  · obtain ⟨context, waiting, selects, among⟩ := divided.turns_sublist
    have here : chosen ∈ sections := by
      rw [divided.all]
      exact List.mem_append_right _ List.mem_cons_self
    cases selects with
    | schedule now => exact .inr ⟨chosen, now, here, fun _ given => Option.some.inj given, among⟩
    | clock now =>
      exact .inr ⟨chosen, now, here, fun _ given => absurd given (Option.some_ne_none _).symm, among⟩

namespace Traffic

/-- Whatever order calls go on in, and whatever collaborators do, a pass on a schedule selects a
rule of an unknown frequency exactly if it is active and has no time of its last execution. If
collaborators are bound, and the engine began with distinct identifiers and with such a time next to
every count, a rule of an unknown frequency is given a turn only if it was active and had never
run. -/
theorem unknown_frequencies_run_until_executed (collaborators : Collaborators σ)
    (traffic : Traffic σ) (callers : List Nat) (caller : Nat) (now? : Option Reading)
    (asked : traffic.calls[caller]? = some (.asked (.schedule now?))) :
    let own := Section.of caller (traffic.follow collaborators callers).1
    (∀ taken ∈ own, taken.deeds = []) ∨ ∃ chosen now, Selection now? own chosen now ∧
      (∀ rule ∈ chosen.found.rules, rule.hasUnknownFrequency = true →
        (rule ∈ chosen.found.dueRules now ↔ rule.isActive = true ∧ rule.lastExecuted = none)) ∧
      (collaborators.Bound → Distinct traffic.engine.rules → Stamped traffic.engine.rules →
        ∀ rule ∈ chosen.found.rules, rule.hasUnknownFrequency = true →
          rule.id ∈ Section.turns own →
            rule.isActive = true ∧ rule.lastExecuted = none ∧ rule.executionCount = 0) := by
  intro own
  obtain ⟨last, _, course⟩ := course_follow collaborators callers traffic asked
  rcases course.selects with silent | ⟨chosen, now, selects⟩
  · exact .inl silent
  · refine .inr ⟨chosen, now, selects, ?_, ?_⟩
    · exact fun rule member unknown => Engine.mem_dueRules_of_unknown member unknown now
    · intro bound distinct stamped rule member unknown turn
      have found := (List.mem_filter.mp selects.member).1
      have apart : Distinct chosen.found.rules :=
        (keeps_follow Amendment.keepUp_distinct
          (Engine.sections_keep_of_bound Amendment.keepUp_distinct bound) callers traffic
          distinct).1 chosen found
      have recorded : Stamped chosen.found.rules :=
        (keeps_follow Amendment.keepUp_stamped
          (Engine.sections_keep_of_bound Amendment.keepUp_stamped bound) callers traffic
          stamped).1 chosen found
      obtain ⟨other, due, named⟩ := List.mem_map.mp (selects.turns.mem turn)
      obtain rfl : other = rule := apart.unique (List.mem_filter.mp due).1 member named
      obtain ⟨active, never⟩ := (Engine.mem_dueRules_of_unknown member unknown now).mp due
      refine ⟨active, never, ?_⟩
      by_contra counts
      have stamp := recorded other member (UInt64.pos_iff_ne_zero.mpr counts)
      rw [never] at stamp
      cases stamp

/-- A request for a rule that is to run every hour. -/
def hourly : NewRule where
  id := some "hourly"
  name := "Hourly"
  trigger := .schedule (.other "hourly") "08:00" none none

/-- An engine that knows such a rule, which is carried out by hand while a pass is asked for. -/
def ringing : Traffic Unit where
  engine := { Engine.welcoming with rules := [Rule.ofNew hourly "" ⟨0, 0⟩] }
  calls := [.asked (.execute "hourly" .null), .asked (.schedule none)]

/-- Once it has been carried out by hand, the rule is given no turn by the pass, for one that is
given a turn would never have run. -/
theorem ringing_runs_once :
    let callers := List.replicate 6 0 ++ List.replicate 3 1
    let followed := ringing.follow .logging callers
    let own := Section.of 1 followed.1
    followed.2.engine.rules.map Rule.executionCount = [1] ∧ Section.turns own = [] ∧
      ((∀ taken ∈ own, taken.deeds = []) ∨ ∃ chosen now, Selection none own chosen now ∧
        ∀ rule ∈ chosen.found.rules, rule.hasUnknownFrequency = true →
          rule.id ∈ Section.turns own →
            rule.isActive = true ∧ rule.lastExecuted = none ∧ rule.executionCount = 0) := by
  intro callers followed own
  refine ⟨by decide +kernel, by decide +kernel, ?_⟩
  have distinct : Distinct ringing.engine.rules := List.nodup_singleton _
  have stamped : Stamped ringing.engine.rules := by
    intro rule member counted
    obtain rfl := List.mem_singleton.mp member
    exact absurd counted (UInt64.lt_irrefl 0)
  rcases unknown_frequencies_run_until_executed .logging ringing callers 1 none rfl with
    silent | ⟨chosen, now, selects, _, never⟩
  · exact .inl silent
  · exact .inr ⟨chosen, now, selects,
      never Collaborators.logging_detached.bound distinct stamped⟩

/-- A rule of an unknown frequency that is registered runs in the next pass. -/
theorem unknown_frequency_runs :
    let engine := Engine.start .inMemory {} Engine.welcoming.supply ()
    let ran := engine.2.runAll .logging [.add hourly, .schedule none]
    (Rule.ofNew hourly "" ⟨0, 0⟩).hasUnknownFrequency = true ∧
      ran.1 = [.ok (.added "hourly"), .ok (.ran ["hourly"])] ∧
      ran.2.rules.map Rule.executionCount = [1] := by
  decide +kernel

end Traffic
end CampusRules
