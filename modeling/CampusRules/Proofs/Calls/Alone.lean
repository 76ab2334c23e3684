import CampusRules.Proofs.Calls.Basic

/-!
# A call that nothing comes between

Section by section, a call comes to the same as the command that it is made of, if no other
call comes between its sections: it gets the same answer and leaves the same engine. So what
the sections say about calls in progress, they say about the commands of an engine.
-/

namespace CampusRules

variable {σ : Type} (collaborators : Collaborators σ)

/-- A call gets from one point to another with nothing between its sections. -/
inductive Leads : Call → Engine σ → Call → Engine σ → Prop where
  | here (call : Call) (engine : Engine σ) : Leads call engine call engine
  | next {call last : Call} {engine after : Engine σ}
      (others : Leads (call.advance collaborators engine).2.1
        (call.advance collaborators engine).2.2 last after) : Leads call engine last after

variable {collaborators}

namespace Leads

/-- What a section comes to, and what that leads to. -/
theorem of_advance {call reached last : Call} {deeds : List Deed} {engine left after : Engine σ}
    (advanced : call.advance collaborators engine = (deeds, reached, left))
    (others : Leads collaborators reached left last after) :
    Leads collaborators call engine last after := by
  apply Leads.next
  rw [advanced]
  exact others

/-- What one stretch leads to, the next may go on from. -/
theorem trans {first second third : Call} {before between after : Engine σ}
    (earlier : Leads collaborators first before second between)
    (later : Leads collaborators second between third after) :
    Leads collaborators first before third after := by
  induction earlier with
  | here => exact later
  | next _ inductionHypothesis => exact .next (inductionHypothesis later)

/-- A call on its own is never kept out, so it gets wherever its sections lead. -/
theorem follow {call last : Call} {engine after : Engine σ}
    (leads : Leads collaborators call engine last after) :
    ∃ sections, (Traffic.follow collaborators (List.replicate sections 0) ⟨engine, [call]⟩).2 =
      ⟨after, [last]⟩ := by
  induction leads with
  | here call engine => exact ⟨0, rfl⟩
  | @next call last engine after _ inductionHypothesis =>
    obtain ⟨sections, followed⟩ := inductionHypothesis
    refine ⟨sections + 1, ?_⟩
    have free : (call.needsLock engine && [call].any Call.holdsLock) = false := by
      rcases call with command | _ | ⟨_, _, stage, _, _⟩ | _
      · cases command <;> rfl
      · rfl
      · cases stage <;> simp [Call.needsLock, Call.holdsLock]
      · rfl
    have stepped : Traffic.step collaborators 0 ⟨engine, [call]⟩ =
        some (⟨0, engine, (call.advance collaborators engine).1,
          (call.advance collaborators engine).2.2⟩, ⟨(call.advance collaborators engine).2.2,
            [(call.advance collaborators engine).2.1]⟩) := by
      simp only [Traffic.step, List.getElem?_cons_zero, free]
      rfl
    simp only [List.replicate_succ, Traffic.follow, stepped]
    exact followed

end Leads

namespace Round

open Engine

/-- The actions of a rule are carried out one by one up to the first that fails. -/
theorem leads_performFrom (round : Round) (rule : Rule) (time : Instant) {actions : List Action}
    {index : Nat} {engine after : Engine σ} {outcome : Except Failure Unit}
    (performed : performFrom collaborators rule.id round.occasion.context index actions engine =
      (outcome, after)) :
    match outcome with
    | .ok () => ∃ reached, Leads collaborators
        (round.reaching (.acting rule time index actions)) engine
        (round.reaching (.acting rule time reached [])) after
    | .error failure => Leads collaborators
        (round.reaching (.acting rule time index actions)) engine (round.reaching .next)
        (after.announce (.failed rule.id failure.message)) := by
  induction actions generalizing index engine with
  | nil =>
    cases performed
    exact ⟨index, .here _ _⟩
  | cons action rest inductionHypothesis =>
    simp only [performFrom] at performed
    split at performed
    · rename_i acted result
      have others := inductionHypothesis performed
      have advanced : (round.reaching (.acting rule time index (action :: rest))).advance
          collaborators engine =
            ((action.message? collaborators.assisted round.occasion.context).toList.map .handed,
              round.reaching (.acting rule time (index + 1) rest),
              acted.announceAction (.completed rule.id index)) := by
        simp only [reaching, Call.advance, advance, act, result]
      cases outcome with
      | ok =>
        obtain ⟨reached, leads⟩ := others
        exact ⟨reached, .of_advance advanced leads⟩
      | error failure => exact .of_advance advanced others
    · rename_i failure acted result
      cases performed
      apply Leads.of_advance ?_ (.here _ _)
      · exact (action.message? collaborators.assisted round.occasion.context).toList.map .handed
      · simp only [reaching, Call.advance, advance, act, result]

/-- An execution is counted, and then the registry is saved. -/
theorem leads_credit (round : Round) (rule : Rule) (time : Instant) (index : Nat)
    (engine : Engine σ) :
    Leads collaborators (round.reaching (.acting rule time index [])) engine
      (round.reaching (.ended rule.id (engine.credit rule.id time).1))
      (engine.credit rule.id time).2 := by
  unfold credit
  rcases bumped : engine.bump rule.id time with ⟨_ | count, after⟩
  · apply Leads.of_advance ?_ (.here _ _)
    · exact [.amended (.count rule.id time)]
    · simp only [reaching, Call.advance, advance, Round.count, bumped]
  · have counted : (round.reaching (.acting rule time index [])).advance collaborators engine =
        ([.amended (.count rule.id time)], round.reaching (.counted rule.id count), after) := by
      simp only [reaching, Call.advance, advance, Round.count, bumped]
    apply Leads.of_advance counted
    cases stored : after.storage with
    | none =>
      have read : (round.reaching (.counted rule.id count)).advance collaborators after =
          ([], round.reaching (.ended rule.id count), after) := by
        simp only [reaching, Call.advance, advance, snapshot, stored]
      simp only [save, stored]
      exact .of_advance read (.here _ _)
    | some location =>
      have read : (round.reaching (.counted rule.id count)).advance collaborators after =
          ([], round.reaching (.writing rule.id count after.rules), after) := by
        simp only [reaching, Call.advance, advance, snapshot, stored]
      exact .of_advance read (.next (.here _ _))

/-- A rule that was found is carried out. -/
theorem leads_carryOut (round : Round) (rule : Rule) (time : Instant) (engine : Engine σ) :
    let result := carryOut collaborators rule round.occasion.context time round.occasion.reason
      engine
    Leads collaborators (round.reaching (.found rule time)) engine
      (reaching .next { round with
        ran := if result.1 then round.ran ++ [rule.id] else round.ran }) result.2 := by
  cases holds : Conditions.hold rule.conditions round.occasion.context with
  | false =>
    simp only [carryOut_of_not_hold holds]
    apply Leads.of_advance ?_ (.here _ _)
    · exact [.decided false]
    · simp [reaching, Call.advance, advance, decideOn, holds]
  | true =>
    have decided : (round.reaching (.found rule time)).advance collaborators engine =
        ([.decided true], round.reaching (.acting rule time 0 rule.actions),
          engine.announce (.triggered rule.id round.occasion.reason)) := by
      simp [reaching, Call.advance, advance, decideOn, holds]
    rcases performed : performFrom collaborators rule.id round.occasion.context 0 rule.actions
      (engine.announce (.triggered rule.id round.occasion.reason)) with ⟨failure | _, after⟩
    · simp only [carryOut_of_error holds performed]
      exact .of_advance decided (leads_performFrom round rule time performed)
    · obtain ⟨reached, leads⟩ := leads_performFrom round rule time performed
      simp only [carryOut_of_ok holds performed]
      exact .of_advance decided ((leads.trans (leads_credit round rule time reached after)).trans
        (.next (.here _ _)))

variable (collaborators) in
/-- The turn of a rule is the attempt at it, at the time of the occasion or of the clock. -/
theorem leads_attempt (round : Round) (id : String) (waiting : List String) (engine : Engine σ) :
    let looked := round.occasion.moment engine
    let result := attempt collaborators id round.occasion.context looked.1 round.occasion.reason
      looked.2
    Leads collaborators (reaching .next { round with waiting := id :: waiting }) engine
      (reaching .next { round with
        waiting, ran := if result.1 then round.ran ++ [id] else round.ran }) result.2 := by
  intro looked
  cases found : (looked.2.find? id).filter (·.isActive) with
  | none =>
    simp only [attempt, found]
    apply Leads.of_advance ?_ (.here _ _)
    · exact [.looked id none]
    · simp [reaching, Call.advance, advance, lookUp, looked, found]
  | some rule =>
    obtain rfl : rule.id = id := by
      simpa using List.find?_some (Option.filter_eq_some_iff.mp found).1
    simp only [attempt, found]
    have lookedUp : (reaching .next { round with waiting := rule.id :: waiting }).advance
        collaborators engine = ([.looked rule.id (some rule)],
          reaching (.found rule looked.1) { round with waiting }, looked.2) := by
      simp only [reaching, Call.advance, advance, lookUp, looked, found]
    exact .of_advance lookedUp (leads_carryOut { round with waiting } rule looked.1 looked.2)

/-- A rule that has had its turn and those that follow it are reported together. -/
theorem conclusion_cons (command : Command) (ran others : List String) (id : String)
    (reported : Bool) :
    command.conclusion ((if reported then ran ++ [id] else ran) ++ others) =
      command.conclusion (ran ++ if reported then id :: others else others) := by
  cases reported <;> simp

/-- Rules that have their turns at one time are carried out one after the other. -/
theorem leads_runEach (command : Command) (context : Json) (time : Instant) (ids ran : List String)
    (engine : Engine σ) :
    let result := runEach collaborators context time ids engine
    Leads collaborators
      (.carrying ⟨command, ⟨context, "schedule", some time⟩, .next, ids, ran⟩) engine
      (.answered (.ok (command.conclusion (ran ++ result.1)))) result.2 := by
  induction ids generalizing ran engine with
  | nil =>
    simp only [runEach, List.append_nil]
    exact .next (.here _ _)
  | cons id rest inductionHypothesis =>
    have attempted := leads_attempt collaborators
      ⟨command, ⟨context, "schedule", some time⟩, .next, [], ran⟩ id rest engine
    simp only [runEach, ← conclusion_cons]
    exact attempted.trans (inductionHypothesis _ _)

/-- Rules that have their turns at the clock's times are carried out one after the other. -/
theorem leads_triggerEach (command : Command) (context : Json) (reason : String)
    (ids ran : List String) (engine : Engine σ) :
    let result := triggerEach collaborators context reason ids engine
    Leads collaborators (.carrying ⟨command, ⟨context, reason, none⟩, .next, ids, ran⟩) engine
      (.answered (.ok (command.conclusion (ran ++ result.1)))) result.2 := by
  induction ids generalizing ran engine with
  | nil =>
    simp only [triggerEach, List.append_nil]
    exact .next (.here _ _)
  | cons id rest inductionHypothesis =>
    have attempted := leads_attempt collaborators
      ⟨command, ⟨context, reason, none⟩, .next, [], ran⟩ id rest engine
    simp only [triggerEach, ← conclusion_cons]
    exact attempted.trans (inductionHypothesis _ _)

end Round

namespace Call

open Engine

/-- A command that carries out no rule sends its events behind those sent before. -/
theorem events_of_quiet {command : Command} (quiet : command.carriesOut = false)
    (engine : Engine σ) :
    engine.events ++ (engine.run collaborators command).2.events.drop engine.events.length =
      (engine.run collaborators command).2.events := by
  obtain ⟨sent, told, _⟩ := run_tells (Collaborators.logging_detached (σ := σ)) command engine
  rw [run_of_not_carriesOut quiet collaborators .logging engine, told, List.drop_left]

/-- A schedule runs the rules that are due when the call begins. -/
theorem leads_schedule (now : Reading) (engine : Engine σ) :
    Leads collaborators (.asked (.schedule (some now))) engine
      (.answered (.ok (.ran (engine.runSchedule collaborators now).1)))
      (engine.runSchedule collaborators now).2 :=
  .next (Round.leads_runEach (.schedule (some now)) _ _ (engine.due now) [] engine)

/-- What is asked is done and answered. -/
theorem leads_run (command : Command) (engine : Engine σ) :
    Leads collaborators (.asked command) engine
      (.answered (engine.run collaborators command).1) (engine.run collaborators command).2 := by
  by_cases carries : command.carriesOut = true
  · cases command with
    | execute id context =>
      have each := Round.leads_attempt collaborators
        ⟨.execute id context, ⟨context, "manual", none⟩, .next, [], []⟩ id [] engine
      have answer : Command.conclusion
          (if (engine.execute collaborators id context).1 then [id] else [])
          (.execute id context) = .done (engine.execute collaborators id context).1 := by
        cases (engine.execute collaborators id context).1 <;> rfl
      simp only [run, ← answer]
      exact .next (each.trans (.next (.here _ _)))
    | trigger event context =>
      exact .next (Round.leads_triggerEach (.trigger event context) context _
        (engine.listeners event) [] engine)
    | schedule now =>
      cases now with
      | some reading => exact leads_schedule reading engine
      | none => exact .next (leads_schedule engine.look.1 engine.look.2)
    | _ => cases carries
  · have quiet : command.carriesOut = false := by simpa using carries
    have started : (Call.asked command).advance collaborators engine = _ :=
      start_of_quiet collaborators quiet engine
    apply Leads.of_advance started
    have told : Leads collaborators
        (.telling ((engine.run collaborators command).2.events.drop engine.events.length)
          (engine.run collaborators command).1)
        { (engine.run collaborators command).2 with events := engine.events }
        (.answered (engine.run collaborators command).1)
        { (engine.run collaborators command).2 with events := engine.events ++
          (engine.run collaborators command).2.events.drop engine.events.length } :=
      .next (.here _ _)
    rw [events_of_quiet quiet] at told
    exact told

variable (collaborators) in
/-- A call that nothing comes between gets the answer of its command, and leaves the engine
that the command leaves. -/
theorem follow_alone (command : Command) (engine : Engine σ) :
    ∃ sections, (Traffic.follow collaborators (List.replicate sections 0)
        ⟨engine, [.asked command]⟩).2 =
      ⟨(engine.run collaborators command).2,
        [.answered (engine.run collaborators command).1]⟩ :=
  (leads_run command engine).follow

end Call
end CampusRules
