import CampusRules.Proofs.Calls.Alone
import CampusRules.Proofs.Calls.Document
import CampusRules.Proofs.Calls.Turn

/-!
# Calls that only carry out rules

While all calls carry rules out, and nobody adds, changes or removes any, the rules stay what
they are but for the record of their executions. What the collaborators have received is what
the sections have handed over, in their order. So a pass on a schedule hands over and counts
what its selection says, whatever other passes there are, and a pass that nothing comes between
is the simplest case of that.
-/

namespace CampusRules

open Behaviour Registry

/-- Whether a call carries rules out, or is answered. -/
def Call.carriesOut : Call → Bool
  | .asked command => command.carriesOut
  | .telling _ _ => false
  | .carrying _ | .answered _ => true

section

variable {σ : Type} {collaborators : Collaborators σ}

/-- A call that carries rules out goes on to do so until it is answered. -/
theorem Call.carriesOut_advance {call : Call} (carries : call.carriesOut = true)
    (found : Engine σ) : (call.advance collaborators found).2.1.carriesOut = true := by
  cases call with
  | asked command =>
    cases command with
    | execute | trigger => rfl
    | schedule now => cases now <;> rfl
    | _ => cases carries
  | telling => cases carries
  | answered => rfl
  | carrying round =>
    have step := round.step collaborators found
    have same : (Call.carrying round).advance collaborators found =
      round.advance collaborators found := rfl
    rw [same]
    generalize round.advance collaborators found = advance at step
    cases step <;> rfl

/-- A call that carries rules out commits no change of the registry. -/
theorem Call.not_commits {call : Call} (carries : call.carriesOut = true)
    (unowed : call.debt = .none) (found : Engine σ) : call.needsLock found = false := by
  cases call with
  | asked command => cases command <;> first | rfl | cases carries
  | telling | answered => rfl
  | carrying round =>
    obtain ⟨_, _, stage, _, _⟩ := round
    cases stage <;> first | rfl | cases unowed

/-- A section of a call that carries rules out keeps the rules but for their records. -/
theorem Effect.bodies {found : Engine σ} {call : Call} {advance : Advance σ}
    (effect : Effect found call advance) (carries : call.carriesOut = true) :
    advance.2.2.rules.map Rule.body = found.rules.map Rule.body := by
  cases effect with
  | passes _ _ _ _ rules | fails _ _ rules | writes _ _ rules => exact congrArg _ rules
  | reads => rfl
  | commits unowed _ locked =>
    rw [Call.not_commits carries unowed] at locked
    cases locked
  | @counts id time _ left _ _ rules =>
    have alike : List.Forall₂ (fun old new : Rule => old.body = new.body) found.rules left.rules :=
      rules ▸ Amendment.forall₂_alterFirst (fun _ => rfl) fun _ _ => rfl
    exact (List.forall₂_eq_eq_eq ▸ List.forall₂_map_left_iff.mpr
      (List.forall₂_map_right_iff.mpr alike) :
        found.rules.map Rule.body = left.rules.map Rule.body).symm

/-- All calls carry rules out as long as the one that goes on does. -/
theorem Traffic.carry_set {calls : List Call} {caller : Nat} {call : Call} {found : Engine σ}
    (carry : ∀ call ∈ calls, call.carriesOut = true) (carries : call.carriesOut = true) :
    ∀ other ∈ calls.set caller (call.advance collaborators found).2.1,
      other.carriesOut = true := by
  intro other member
  rcases List.mem_or_eq_of_mem_set member with same | rfl
  · exact carry other same
  · exact call.carriesOut_advance carries found

/-- The rules that a section finds are what they were but for their records, if all calls carry
rules out. -/
theorem Traffic.bodies_follow (detached : collaborators.Detached) (callers : List Nat)
    (traffic : Traffic σ) (carry : ∀ call ∈ traffic.calls, call.carriesOut = true) :
    ∀ taken ∈ (traffic.follow collaborators callers).1,
      taken.found.rules.map Rule.body = traffic.engine.rules.map Rule.body := by
  refine (follow_induction (fun past reached =>
    (∀ taken ∈ past, taken.found.rules.map Rule.body = traffic.engine.rules.map Rule.body) ∧
      (∀ call ∈ reached.calls, call.carriesOut = true) ∧
      reached.engine.rules.map Rule.body = traffic.engine.rules.map Rule.body)
    ?_ callers traffic ⟨by simp, carry, rfl⟩).1
  rintro past caller reached taken after ⟨earlier, carry, bodies⟩ stepped
  obtain ⟨call, there, _, rfl, rfl⟩ := step_eq_some stepped
  have carries := carry call (List.mem_of_getElem? there)
  have kept := (call.advance_effect detached reached.engine).bodies carries
  refine ⟨?_, carry_set carry carries, kept.trans bodies⟩
  intro taken member
  rcases List.mem_append.mp member with past | last
  · exact earlier taken past
  · rw [List.mem_singleton.mp last]
    exact bodies

/-- Only callers that there are carry out sections. -/
theorem Traffic.caller_follow (callers : List Nat) (traffic : Traffic σ) :
    ∀ taken ∈ (traffic.follow collaborators callers).1, taken.caller < traffic.calls.length := by
  refine (follow_induction (fun past reached =>
    (∀ taken ∈ past, taken.caller < traffic.calls.length) ∧
      reached.calls.length = traffic.calls.length) ?_ callers traffic ⟨by simp, rfl⟩).1
  rintro past caller reached taken after ⟨earlier, same⟩ stepped
  obtain ⟨call, there, _, rfl, rfl⟩ := step_eq_some stepped
  refine ⟨?_, List.length_set.trans same⟩
  intro taken member
  rcases List.mem_append.mp member with past | last
  · exact earlier taken past
  · rw [List.mem_singleton.mp last, ← same]
    exact (List.getElem?_eq_some_iff.mp there).1

/-- A section finds the registry that the sections before it have left. -/
theorem Traffic.found_follow (detached : collaborators.Detached) (callers : List Nat)
    (traffic : Traffic σ) (opening : List (Section σ)) {chosen : Section σ}
    {later : List (Section σ)}
    (split : (traffic.follow collaborators callers).1 = opening ++ chosen :: later) :
    chosen.found.rules = (Deed.amendments (Section.allDeeds opening)).foldl Amendment.apply
      traffic.engine.rules := by
  let made (past : List (Section σ)) : List Rule :=
    (Deed.amendments (Section.allDeeds past)).foldl Amendment.apply traffic.engine.rules
  refine (follow_induction (fun past reached =>
    (∀ opening chosen later, past = opening ++ chosen :: later →
      chosen.found.rules = made opening) ∧ reached.engine.rules = made past)
    ?_ callers traffic ⟨by simp, rfl⟩).1 opening chosen later split
  rintro past caller reached taken after ⟨earlier, rules⟩ stepped
  obtain ⟨call, there, _, rfl, rfl⟩ := step_eq_some stepped
  constructor
  · intro opening chosen later split
    rcases List.eq_nil_or_concat later with rfl | ⟨front, last, rfl⟩
    · obtain ⟨rfl, same⟩ := List.append_inj' split rfl
      obtain rfl := (List.cons.inj same).1
      exact rules
    · rw [List.concat_eq_append, ← List.cons_append, ← List.append_assoc] at split
      exact earlier opening chosen front (List.append_inj' split rfl).1
  · simp only [made, Section.allDeeds_concat, Deed.amendments_append,
      List.foldl_append] at rules ⊢
    rw [← rules]
    exact (call.advance_effect detached reached.engine).rules

end

/-- Which rules are due is a matter of the registry only. -/
theorem Engine.dueRules_congr {σ : Type} {first second : Engine σ} {now : Reading}
    (same : first.rules = second.rules) : first.dueRules now = second.dueRules now := by
  rw [dueRules, dueRules, same]

section

variable {reply : Handoff → Except Failure Reply} {collaborators : Collaborators (List Handoff)}
  (behaves : collaborators.Behaves (recording reply))

include behaves

/-- What a section of a round hands over is what its collaborators receive. -/
theorem Round.Step.received {round : Round} {found : Engine (List Handoff)}
    {advance : Advance (List Handoff)} (step : round.Step collaborators found advance) :
    advance.2.2.outside = found.outside ++ Deed.handoffs advance.1 := by
  have acted {action : Action} {started acted : Engine (List Handoff)}
      {outcome : Except Failure Unit}
      (performed : Engine.perform collaborators action round.occasion.context started =
        (outcome, acted)) (same : started.outside = found.outside) :
      acted.outside = found.outside ++ Deed.handoffs
        ((action.message? collaborators.assisted round.occasion.context).toList.map .handed) := by
    obtain ⟨log, alike⟩ := Engine.perform_act behaves action round.occasion.context started
    rw [performed, receive_recording, same] at alike
    have left := congrArg (fun result => result.2.outside) alike
    refine left.trans (congrArg (found.outside ++ ·) ?_)
    change (action.message? collaborators.assisted round.occasion.context).toList = _
    cases action.message? collaborators.assisted round.occasion.context <;> rfl
  cases step with
  | acts stage performed | fails stage performed =>
    have received := acted performed rfl
    exact received
  | passes | finds =>
    rw [round.occasion.moment_engine found]
    exact (List.append_nil _).symm
  | writes =>
    rw [Engine.save_changes_disk]
    exact (List.append_nil _).symm
  | _ => exact (List.append_nil _).symm

/-- What a section of a call that carries rules out hands over is what its collaborators
receive. -/
theorem Call.received {call : Call} (carries : call.carriesOut = true)
    (found : Engine (List Handoff)) : (call.advance collaborators found).2.2.outside =
      found.outside ++ Deed.handoffs (call.advance collaborators found).1 := by
  cases call with
  | asked command =>
    cases command with
    | execute | trigger => exact (List.append_nil _).symm
    | schedule now => cases now <;> exact (List.append_nil _).symm
    | _ => cases carries
  | telling => cases carries
  | answered => exact (List.append_nil _).symm
  | carrying round => exact (round.step collaborators found).received behaves

/-- What collaborators have received while calls carry out rules is what these have handed
over. -/
theorem Traffic.received_follow (callers : List Nat) (traffic : Traffic (List Handoff))
    (carry : ∀ call ∈ traffic.calls, call.carriesOut = true) :
    (traffic.follow collaborators callers).2.engine.outside = traffic.engine.outside ++
      Deed.handoffs (Section.allDeeds (traffic.follow collaborators callers).1) := by
  refine (follow_induction (fun past reached =>
    (∀ call ∈ reached.calls, call.carriesOut = true) ∧ reached.engine.outside =
      traffic.engine.outside ++ Deed.handoffs (Section.allDeeds past))
    ?_ callers traffic ⟨carry, (List.append_nil _).symm⟩).2
  rintro past caller reached taken after ⟨carry, received⟩ stepped
  obtain ⟨call, there, _, rfl, rfl⟩ := step_eq_some stepped
  have carries := carry call (List.mem_of_getElem? there)
  constructor
  · exact carry_set carry carries
  · rw [Section.allDeeds_concat, Deed.handoffs_append, ← List.append_assoc, ← received]
    exact call.received behaves carries reached.engine

/-- A pass that is answered has handed over and counted what its selection says, whatever other
calls there are that carry rules out. -/
theorem Traffic.schedule_follow (callers : List Nat) (traffic : Traffic (List Handoff))
    (carry : ∀ call ∈ traffic.calls, call.carriesOut = true)
    (distinct : Distinct traffic.engine.rules) {caller : Nat} {now : Reading}
    (asked : traffic.calls[caller]? = some (.asked (.schedule (some now))))
    {outcome : Except Failure Answer}
    (answered : (traffic.follow collaborators callers).2.calls[caller]? =
      some (.answered outcome)) :
    ∃ chosen rest, Section.of caller (traffic.follow collaborators callers).1 = chosen :: rest ∧
      chosen.deeds = [] ∧ Carries reply collaborators.assisted now (chosen.found.dueRules now)
        (Section.allDeeds rest) := by
  obtain ⟨last, reached, course⟩ := course_follow collaborators callers traffic asked
  obtain rfl : Call.answered outcome = last := Option.some.inj (answered.symm.trans reached)
  have bodies := bodies_follow behaves.detached callers traffic carry
  have apart : Distinct (traffic.engine.rules.map Rule.body) := by
    rw [Distinct, List.map_map]
    exact distinct
  exact course.schedule behaves apart fun taken member => bodies taken (List.mem_filter.mp member).1

/-- A pass that nothing comes between hands over and counts what its selection says. -/
theorem Engine.runSchedule_carries (now : Reading) (engine : Engine (List Handoff))
    (distinct : Distinct engine.rules) :
    ∃ deeds, Carries reply collaborators.assisted now (engine.dueRules now) deeds ∧
      (engine.runSchedule collaborators now).2.outside =
        engine.outside ++ Deed.handoffs deeds ∧
      (engine.runSchedule collaborators now).2.rules =
        (Deed.amendments deeds).foldl Amendment.apply engine.rules := by
  let traffic : Traffic (List Handoff) := ⟨engine, [.asked (.schedule (some now))]⟩
  obtain ⟨sections, alone⟩ := Call.follow_alone collaborators
    (.schedule (some now)) engine
  let callers := List.replicate sections 0
  have carry : ∀ call ∈ traffic.calls, call.carriesOut = true := by simp [traffic, Call.carriesOut,
    Command.carriesOut]
  have asked : traffic.calls[0]? = some (.asked (.schedule (some now))) := rfl
  have all : Section.of 0 (traffic.follow collaborators callers).1 =
      (traffic.follow collaborators callers).1 := by
    apply List.filter_eq_self.mpr
    intro taken member
    have below := Traffic.caller_follow callers traffic taken member
    simpa [traffic] using below
  obtain ⟨chosen, rest, split, silent, carries⟩ := Traffic.schedule_follow behaves callers traffic
    carry distinct asked (by rw [alone]; rfl)
  rw [all] at split
  have found : chosen.found.rules = engine.rules :=
    Traffic.found_follow behaves.detached callers traffic [] split
  have received := Traffic.received_follow behaves callers traffic carry
  have rules := Traffic.rules_follow behaves.detached callers traffic
  have deeds : Section.allDeeds (traffic.follow collaborators callers).1 =
      Section.allDeeds rest := by
    simp only [split, Section.allDeeds, List.flatMap_cons, silent, List.nil_append]
  rw [deeds, alone] at received rules
  rw [Engine.dueRules_congr found] at carries
  exact ⟨Section.allDeeds rest, carries, received, rules⟩

end

end CampusRules
