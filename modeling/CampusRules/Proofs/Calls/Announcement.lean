import CampusRules.Proofs.Calls.Tally
import CampusRules.Proofs.Engine.Evolution
import CampusRules.Proofs.Registry.Standing
import Mathlib.Data.List.Infix

/-!
# In what order the registry is announced

What a section does to the registry is announced by another section of its call. Until then the
event is pending, and other calls may go on. So events are sent in an order of their own: two calls
for one identifier may announce what they did the other way round.

Nothing is announced twice, or not at all, or that did not happen. In any order of the callers, the
events that were sent and those that are pending are together what has happened, in some order; and
in the order in which it happened it tells how every identifier stands. Where two calls never have
events about an identifier pending at one time, these are sent in that order, too.
-/

namespace CampusRules

open Registry

/-- What is still to be told at a stage of a turn. -/
def Stage.pending : Stage → List Event
  | .counted id count | .writing id count _ | .ended id count => [.executed id count]
  | _ => []

/-- What a call has done and still has to tell, as far as it bears on how identifiers stand. -/
def Call.pending : Call → List Event
  | .telling events _ => events.filter Event.bears
  | .carrying round => round.stage.pending
  | _ => []

variable {σ : Type}

/-- What all calls still have to tell. -/
def Traffic.pending (traffic : Traffic σ) : List Event := traffic.calls.flatMap Call.pending

/-- What happens in a section that has done its deeds and left an engine, as an event, if it bears
on how an identifier stands. -/
def Deed.happening? (deeds : List Deed) (left : Engine σ) : Option Event :=
  match deeds with
  | .amended (.append rule) :: _ => some (.created rule.id)
  | .amended (.erase id) :: _ => some (.removed id)
  | .amended (.count id _) :: _ => some (.executed id ((standing id left.rules).getD 0))
  | _ => none

/-- What happens in a section. -/
def Section.happening? (taken : Section σ) : Option Event :=
  Deed.happening? taken.deeds taken.left

/-- What happens in sections, in their order. -/
def Section.happenings (sections : List (Section σ)) : List Event :=
  sections.filterMap Section.happening?

/-- What a section of a call does about events: nothing that bears on how an identifier stands, or
something that the call has to tell then, or it tells what was pending. -/
inductive Announces (found : Engine σ) (call : Call) : Advance σ → Prop where
  | passes {deeds : List Deed} {after : Call} {left : Engine σ} (told : List Event)
      (events : left.events = found.events ++ told) (aside : told.filter Event.bears = [])
      (pending : after.pending = call.pending) (nothing : Deed.happening? deeds left = none)
      (recounts : Recounts found.rules [] left.rules) : Announces found call (deeds, after, left)
  | happens {deeds : List Deed} {after : Call} {left : Engine σ} {event : Event}
      (events : left.events = found.events) (idle : call.pending = [])
      (pending : after.pending = [event]) (happening : Deed.happening? deeds left = some event)
      (recounts : Recounts found.rules [event] left.rules) :
      Announces found call (deeds, after, left)
  | tells {after : Call} {left : Engine σ} (told : List Event)
      (events : left.events = found.events ++ told)
      (pending : told.filter Event.bears = call.pending) (idle : after.pending = [])
      (rules : left.rules = found.rules) : Announces found call ([], after, left)

variable {collaborators : Collaborators σ}

namespace Announces

open Engine

/-- A section that changes neither the registry nor the events, and has nothing to tell. -/
theorem of_same {deeds : List Deed} {call after : Call} {found left : Engine σ}
    (events : left.events = found.events) (rules : left.rules = found.rules)
    (pending : after.pending = call.pending) (nothing : Deed.happening? deeds left = none) :
    Announces found call (deeds, after, left) := by
  refine .passes [] (events.trans (List.append_nil _).symm) rfl pending nothing ?_
  rw [rules]
  exact .refl _

/-- A change of the registry that was refused or failed, or found no rule. -/
theorem of_untouched {command : Command} {outcome : Except Failure Answer} {found after : Engine σ}
    (untouched : Untouched found after)
    (nothing : ∀ left : Engine σ, Deed.happening? (command.deeds found outcome) left = none) :
    Announces found (.asked command) (command.deeds found outcome,
      .telling (after.events.drop found.events.length) outcome,
      { after with events := found.events }) := by
  refine of_same rfl untouched.rules ?_ (nothing _)
  rw [untouched.events, List.drop_length]
  rfl

/-- A change of the registry that was committed. -/
theorem of_committed {deeds : List Deed} {command : Command} {outcome : Except Failure Answer}
    {event : Event} {rules : List Rule} {found after : Engine σ}
    (committed : Committed rules event found after) (bearing : event.bears = true)
    (happening : ∀ left : Engine σ, Deed.happening? deeds left = some event)
    (recounts : Recounts found.rules [event] rules) :
    Announces found (.asked command) (deeds,
      .telling (after.events.drop found.events.length) outcome,
      { after with events := found.events }) := by
  refine .happens rfl rfl ?_ (happening _) (committed.rules ▸ recounts)
  rw [committed.events, List.drop_left, Call.pending, List.filter_cons_of_pos bearing]
  rfl

/-- Nothing happens where a command fails. -/
theorem nothing_of_error (command : Command) (failure : Failure) (found left : Engine σ) :
    Deed.happening? (command.deeds found (.error failure)) left = none := by
  cases command <;> cases failure <;> rfl

/-- Nothing happens where a command finds no rule. -/
theorem nothing_of_missing (command : Command) (found left : Engine σ) :
    Deed.happening? (command.deeds found (.ok (.done false))) left = none := by
  cases command <;> rfl

/-- A command that carries out no rule does nothing to how identifiers stand, or has one event to
tell. -/
theorem of_quiet {command : Command} (quiet : command.carriesOut = false) (found : Engine σ) :
    Announces found (.asked command) (Call.start collaborators command found) := by
  cases command with
  | add new =>
    have accepted (id : String) (done : (found.add new).1 = .ok id) := insert_accepted done
    rcases outcome : found.add new with ⟨result, after⟩
    have possible := add_outcome new found
    rw [outcome] at possible accepted
    simp only [Call.start, run, answered, outcome]
    rcases possible with ⟨failure, rfl, untouched⟩ | ⟨rfl, committed⟩
    · exact of_untouched untouched (nothing_of_error _ _ _)
    · have unlike := (accepted _ rfl).2
      refine of_committed committed rfl (fun _ => rfl) (recounts_of_learn? ?_ ?_)
      · exact fun distinct => distinct.append unlike
      · exact fun _ id => learn?_append unlike rfl id
  | remove id =>
    rcases outcome : found.remove id with ⟨result, after⟩
    have possible := remove_outcome id found
    rw [outcome] at possible
    simp only [Call.start, run, answered, outcome]
    rcases possible with ⟨rfl, _, untouched⟩ | ⟨failure, rfl, untouched⟩ |
      ⟨rfl, index, position, committed⟩
    · exact of_untouched untouched (nothing_of_missing _ _)
    · exact of_untouched untouched (nothing_of_error _ _ _)
    · refine of_committed committed rfl (fun _ => rfl) (recounts_of_learn? ?_ ?_)
      · exact fun distinct => distinct.sublist ((List.eraseIdx_sublist _ index).map Rule.id)
      · exact fun distinct => learn?_eraseIdx distinct position
  | update id change =>
    rcases outcome : found.update id change with ⟨result, after⟩
    have possible := update_outcome id change found
    rw [outcome] at possible
    simp only [Call.start, run, answered, outcome]
    rcases possible with ⟨rfl, _, untouched⟩ | ⟨failure, rfl, untouched⟩ |
      ⟨rfl, index, rule, position, there, _, _, committed⟩
    · exact of_untouched untouched (nothing_of_missing _ _)
    · exact of_untouched untouched (nothing_of_error _ _ _)
    · have told : after.events.drop found.events.length = [.updated id] := by
        rw [committed.events, List.drop_left]
      rw [told]
      refine .passes [] (List.append_nil _).symm rfl rfl rfl ?_
      intro distinct
      have adjusted : after.rules = adjust id (·.merge change) found.rules := by
        rw [committed.rules, ← modify_of_getElem? found.rules (·.merge change) index rule there]
        exact modify_findIdx found.rules id index (·.merge change) distinct position
      refine ⟨?_, fun other => congrArg some ?_⟩
      · exact adjusted ▸ distinct.adjust id fun _ => rfl
      · simp only [adjusted]
        exact (standing_adjust_of_same (·.merge change) (fun _ => rfl) fun _ _ => rfl).symm
  | get | rules | activeRules =>
    refine of_same rfl rfl ?_ rfl
    simp [Call.pending]
  | execute | trigger | schedule => cases quiet

/-- Counting an execution gives the number that its rule has then. -/
theorem standing_count (id : String) (time : Instant) (engine : Engine σ) :
    standing id (Amendment.apply engine.rules (.count id time)) = (engine.bump id time).1 := by
  cases position : engine.position? id with
  | none =>
    have same : (engine.bump id time).1 = none := by simp only [bump, position]
    rw [same, Amendment.apply, Amendment.alterFirst_of_absent position]
    exact standing_eq_none.mpr (ne_of_findIdx_none position)
  | some index =>
    obtain ⟨rule, there, named⟩ := position?_rule position
    have number : (engine.bump id time).1 = some (rule.executed time).executionCount := by
      simp [bump, position, there]
    have counted : Amendment.apply engine.rules (.count id time) =
        engine.rules.set index (rule.executed time) :=
      (Amendment.modify_eq_alterFirst position).symm.trans
        (modify_of_getElem? engine.rules (·.executed time) index rule there)
    have found : (engine.rules.set index (rule.executed time)).find? (·.id == id) =
        some (rule.executed time) := find?_set position named
    rw [number, counted, standing, found, Option.map_some]

/-- The section that counts an execution has its number to tell. -/
theorem of_count {round : Round} {id : String} {time : Instant} {after : Call} {number : UInt64}
    {found left : Engine σ} (events : left.events = found.events)
    (rules : left.rules = Amendment.apply found.rules (.count id time))
    (idle : (Call.carrying round).pending = []) (pending : after.pending = [.executed id number])
    (counted : (standing id left.rules).getD 0 = number) :
    Announces found (.carrying round) ([.amended (.count id time)], after, left) := by
  subst counted
  refine .happens events idle pending rfl fun distinct => ?_
  have adjusted : left.rules = adjust id (·.executed time) found.rules :=
    rules.trans (Amendment.alterFirst_eq_adjust distinct)
  rw [adjusted]
  refine recounts_of_learn? ?_ ?_ distinct
  · exact fun distinct => distinct.adjust id fun _ => rfl
  · exact fun _ other => learn?_executed other id time

/-- What a section of a round does about events. -/
theorem of_step (detached : collaborators.Detached) {round : Round} {found : Engine σ}
    {advance : Advance σ} (step : round.Step collaborators found advance) :
    Announces found (.carrying round) advance := by
  have reached {stage : Stage} (same : round.stage = stage) :
      (Call.carrying round).pending = stage.pending := by rw [← same]; rfl
  have nothing (message : Option Handoff) (left : Engine σ) :
      Deed.happening? (message.toList.map Deed.handed) left = none := by
    cases message <;> rfl
  have acted {action : Action} {started after : Engine σ} {outcome : Except Failure Unit}
      (performed : perform collaborators action round.occasion.context started = (outcome, after)) :
      after.events = started.events ∧ after.rules = started.rules := by
    have aside := (actionSections_aside detached).perform action round.occasion.context started
    rw [performed] at aside
    obtain ⟨_, _, _, rfl⟩ := aside
    exact ⟨rfl, rfl⟩
  cases step with
  | answers stage => exact of_same rfl rfl (reached stage).symm rfl
  | passes stage | finds stage =>
    rw [round.occasion.moment_engine found]
    exact of_same rfl rfl (reached stage).symm rfl
  | skips stage =>
    exact .passes [_, _] (List.append_assoc _ _ _) rfl (reached stage).symm rfl (.refl _)
  | begins stage => exact .passes [_] rfl rfl (reached stage).symm rfl (.refl _)
  | acts stage performed =>
    obtain ⟨events, rules⟩ := acted performed
    exact of_same events rules (reached stage).symm (nothing _ _)
  | @fails rule _ _ _ _ after failure stage performed =>
    obtain ⟨events, rules⟩ := acted performed
    refine .passes [.failed rule.id failure.message] ?_ rfl (reached stage).symm (nothing _ _) ?_
    · exact congrArg (· ++ _) events
    · exact rules ▸ .refl _
  | misses stage gone =>
    refine of_count rfl (Amendment.alterFirst_of_absent gone).symm (reached stage) rfl ?_
    rw [standing_eq_none.mpr (ne_of_findIdx_none gone)]
    rfl
  | counts stage bumped =>
    refine of_count rfl rfl (reached stage) rfl ?_
    rw [standing_count, bumped]
    rfl
  | unstored stage | reads stage => exact of_same rfl rfl (reached stage).symm rfl
  | @writes _ _ snapshot stage =>
    have others := save_changes_disk snapshot found
    exact of_same (by rw [others]) (by rw [others]) (reached stage).symm rfl
  | tells stage => exact .tells [_] rfl (reached stage).symm rfl rfl

/-- What happens in a section recounts the way to the registry that it leaves. -/
theorem recounts {found : Engine σ} {call : Call} {advance : Advance σ}
    (announces : Announces found call advance) :
    Recounts found.rules (Deed.happening? advance.1 advance.2.2).toList advance.2.2.rules := by
  cases announces with
  | passes told events aside pending nothing recounts => rwa [nothing]
  | happens events idle pending happening recounts => rwa [happening]
  | tells told events pending idle rules => exact rules ▸ .refl _

/-- What was pending and what happens is told or pending then, in this order. A section in which
something happens tells nothing. -/
theorem conserves {found : Engine σ} {call : Call} {advance : Advance σ}
    (announces : Announces found call advance) :
    ∃ told, advance.2.2.events = found.events ++ told ∧
      call.pending ++ (Deed.happening? advance.1 advance.2.2).toList =
        told.filter Event.bears ++ advance.2.1.pending ∧
      (Deed.happening? advance.1 advance.2.2 = none ∨ told.filter Event.bears = []) := by
  cases announces with
  | passes told events aside pending nothing recounts =>
    refine ⟨told, events, ?_, .inl nothing⟩
    rw [nothing, aside, pending]
    exact List.append_nil _
  | happens events idle pending happening recounts =>
    refine ⟨[], events.trans (List.append_nil _).symm, ?_, .inr rfl⟩
    rw [idle, pending, happening]
    rfl
  | tells told events pending idle rules =>
    refine ⟨told, events, ?_, .inl rfl⟩
    rw [pending, idle]
    rfl

end Announces

/-- What a section of a call does about events, if collaborators are detached. -/
theorem Call.announces (detached : collaborators.Detached) (call : Call) (found : Engine σ) :
    Announces found call (call.advance collaborators found) := by
  cases call with
  | carrying round => exact .of_step detached (round.step collaborators found)
  | telling events outcome => exact .tells events rfl rfl rfl rfl
  | answered => exact .of_same rfl rfl rfl rfl
  | asked command =>
    by_cases carries : command.carriesOut = true
    · cases command with
      | execute | trigger => exact .of_same rfl rfl rfl rfl
      | schedule now => cases now <;> exact .of_same rfl rfl rfl rfl
      | _ => cases carries
    · exact .of_quiet (by simpa using carries) found

namespace Event

/-- Among the events that bear on any identifier are those that bear on one. -/
theorem filter_bearsOn (id : String) (events : List Event) :
    (events.filter bears).filter (bearsOn id) = events.filter (bearsOn id) := by
  rw [List.filter_filter]
  refine List.filter_congr fun event _ => ?_
  unfold bearsOn
  cases event.bears <;> simp

end Event

/-- What happens in sections in a row. -/
theorem Section.happenings_cons (taken : Section σ) (rest : List (Section σ)) :
    happenings (taken :: rest) = taken.happening?.toList ++ happenings rest := by
  unfold happenings
  cases happening : taken.happening? with
  | none => rw [List.filterMap_cons_none happening]; rfl
  | some event => rw [List.filterMap_cons_some happening]; rfl

/-- What happens in sections and in one more. -/
theorem Section.happenings_concat (past : List (Section σ)) (taken : Section σ) :
    happenings (past ++ [taken]) = happenings past ++ taken.happening?.toList := by
  have last : happenings [taken] = taken.happening?.toList :=
    (happenings_cons taken []).trans (List.append_nil _)
  rw [happenings, List.filterMap_append, ← happenings, ← happenings, last]

namespace Traffic

open Section

/-- A call stands among the others, which stay where they are when it goes on. -/
theorem exists_among {calls : List Call} {caller : Nat} {call : Call}
    (there : calls[caller]? = some call) (next : Call) :
    ∃ front back, calls = front ++ call :: back ∧
      calls.set caller next = front ++ next :: back := by
  obtain ⟨inside, same⟩ := List.getElem?_eq_some_iff.mp there
  refine ⟨calls.take caller, calls.drop (caller + 1), ?_, ?_⟩
  · rw [← same, List.getElem_cons_drop, List.take_append_drop]
  · rw [List.set_eq_take_append_cons_drop, if_pos inside]

/-- What happens in a section recounts the way to the next registry. What was pending and what
happens is told or pending then. Where something happens, nothing is told. -/
theorem step_conserves (detached : collaborators.Detached) {traffic after : Traffic σ}
    {caller : Nat} {taken : Section σ}
    (stepped : traffic.step collaborators caller = some (taken, after)) :
    Recounts traffic.engine.rules taken.happening?.toList after.engine.rules ∧
    ∃ told, after.engine.events = traffic.engine.events ++ told ∧
      (traffic.pending ++ taken.happening?.toList).Perm
        (told.filter Event.bears ++ after.pending) ∧
      (taken.happening? = none ∨ told.filter Event.bears = []) := by
  obtain ⟨call, there, _, rfl, rfl⟩ := step_eq_some stepped
  have announces := call.announces detached traffic.engine
  obtain ⟨told, events, conserved, either⟩ := announces.conserves
  obtain ⟨front, back, before, behind⟩ :=
    exists_among there (call.advance collaborators traffic.engine).2.1
  refine ⟨announces.recounts, told, events, ?_, either⟩
  simp only [pending, before ▸ behind, before, List.flatMap_append, List.flatMap_cons]
  refine List.perm_iff_count.mpr fun event => ?_
  have counted := congrArg (List.count event) conserved
  simp only [List.count_append, Section.happening?] at counted ⊢
  omega

/-- In any order of the callers, what happens recounts the way from the first registry to the
last. -/
theorem follow_recounts (detached : collaborators.Detached) (callers : List Nat)
    (traffic : Traffic σ) :
    Recounts traffic.engine.rules (happenings (traffic.follow collaborators callers).1)
      (traffic.follow collaborators callers).2.engine.rules := by
  refine follow_induction (fun past reached =>
    Recounts traffic.engine.rules (happenings past) reached.engine.rules) ?_ callers traffic
    (.refl _)
  intro past caller reached taken after recounted stepped
  rw [happenings_concat]
  exact recounted.trans (step_conserves detached stepped).1

/-- In any order of the callers, what happens is told or still pending in the end. -/
theorem follow_conserves (detached : collaborators.Detached) (callers : List Nat)
    (traffic : Traffic σ) :
    ∃ sent, (traffic.follow collaborators callers).2.engine.events =
        traffic.engine.events ++ sent ∧
      (traffic.pending ++ happenings (traffic.follow collaborators callers).1).Perm
        (sent.filter Event.bears ++ (traffic.follow collaborators callers).2.pending) := by
  refine follow_induction (fun past reached =>
    ∃ sent, reached.engine.events = traffic.engine.events ++ sent ∧
      (traffic.pending ++ happenings past).Perm (sent.filter Event.bears ++ reached.pending)) ?_
    callers traffic ⟨[], (List.append_nil _).symm, by simp [happenings]⟩
  rintro past caller reached taken after ⟨sent, events, conserved⟩ stepped
  obtain ⟨_, told, later, here, _⟩ := step_conserves detached stepped
  refine ⟨sent ++ told, by rw [later, events, List.append_assoc], ?_⟩
  rw [happenings_concat, ← List.append_assoc, List.filter_append,
    List.append_assoc (sent.filter Event.bears)]
  refine (conserved.append_right _).trans ?_
  rw [List.append_assoc]
  exact here.append_left _

/-- Two calls never have events about an identifier pending at one time, while calls go on in the
order of a list of callers. -/
def Apart (collaborators : Collaborators σ) (id : String) (callers : List Nat)
    (traffic : Traffic σ) : Prop :=
  ∀ first, first <+: callers →
    ((traffic.follow collaborators first).2.pending.filter (Event.bearsOn id)).length ≤ 1

/-- Calls that are never pending at one time to begin with are not later on. -/
theorem Apart.tail {id : String} {caller : Nat} {rest : List Nat} {traffic after : Traffic σ}
    {taken : Section σ} (apart : Apart collaborators id (caller :: rest) traffic)
    (stepped : traffic.step collaborators caller = some (taken, after)) :
    Apart collaborators id rest after := by
  intro first isPrefix
  have bound := apart (caller :: first) (List.cons_prefix_cons.mpr ⟨rfl, isPrefix⟩)
  simpa only [follow, stepped] using bound

/-- Lists of one event at most are the same, if one is in the order of the other. -/
theorem eq_of_perm {first second : List Event} (perm : first.Perm second)
    (short : second.length ≤ 1) : first = second := by
  match second with
  | [] => exact perm.eq_nil
  | [event] => exact perm.eq_singleton

/-- A section keeps the order of what bears on an identifier, if no two calls have such events
pending before it or behind it. -/
theorem step_in_order (detached : collaborators.Detached) {id : String} {traffic after : Traffic σ}
    {caller : Nat} {taken : Section σ}
    (stepped : traffic.step collaborators caller = some (taken, after))
    (before : (traffic.pending.filter (Event.bearsOn id)).length ≤ 1)
    (behind : (after.pending.filter (Event.bearsOn id)).length ≤ 1) :
    ∃ told, after.engine.events = traffic.engine.events ++ told ∧
      (traffic.pending ++ taken.happening?.toList).filter (Event.bearsOn id) =
        (told ++ after.pending).filter (Event.bearsOn id) := by
  obtain ⟨_, told, events, perm, either⟩ := step_conserves detached stepped
  refine ⟨told, events, ?_⟩
  have bearing := perm.filter (Event.bearsOn id)
  rw [List.filter_append (told.filter Event.bears), Event.filter_bearsOn, ← List.filter_append]
    at bearing
  -- One side is what is pending alone, so there is one such event at most.
  rcases either with nothing | silent
  · refine (eq_of_perm bearing.symm ?_).symm
    simpa [nothing] using before
  · refine eq_of_perm bearing ?_
    have aside : told.filter (Event.bearsOn id) = [] := by
      rw [← Event.filter_bearsOn, silent, List.filter_nil]
    rwa [List.filter_append, aside, List.nil_append]

/-- Where no two calls ever have events about an identifier pending at one time, these are told or
pending in the order in which they happen. -/
theorem follow_in_order (detached : collaborators.Detached) {id : String} {callers : List Nat}
    {traffic : Traffic σ} (apart : Apart collaborators id callers traffic) :
    ∃ sent, (traffic.follow collaborators callers).2.engine.events =
        traffic.engine.events ++ sent ∧
      (traffic.pending ++ happenings (traffic.follow collaborators callers).1).filter
          (Event.bearsOn id) =
        (sent ++ (traffic.follow collaborators callers).2.pending).filter (Event.bearsOn id) := by
  induction callers generalizing traffic with
  | nil => exact ⟨[], (List.append_nil _).symm, by simp [follow, happenings]⟩
  | cons caller rest inductionHypothesis =>
    cases stepped : traffic.step collaborators caller with
    | none =>
      simp only [follow, stepped]
      refine inductionHypothesis fun first isPrefix => ?_
      have bound := apart (caller :: first) (List.cons_prefix_cons.mpr ⟨rfl, isPrefix⟩)
      simpa only [follow, stepped] using bound
    | some result =>
      obtain ⟨taken, after⟩ := result
      have later := apart.tail stepped
      obtain ⟨told, events, here⟩ := step_in_order detached stepped
        (apart [] List.nil_prefix) (later [] List.nil_prefix)
      obtain ⟨sent, moreEvents, others⟩ := inductionHypothesis later
      simp only [follow, stepped, happenings_cons]
      refine ⟨told ++ sent, ?_, ?_⟩
      · rw [moreEvents, events, List.append_assoc]
      · rw [← List.append_assoc, List.filter_append, here, List.filter_append, List.append_assoc,
          ← List.filter_append, others, ← List.filter_append, List.append_assoc]

/-- Calls that were only asked have nothing to tell yet. -/
theorem pending_asked (commands : List Command) (engine : Engine σ) :
    (Traffic.mk engine (commands.map .asked)).pending = [] := by
  refine List.flatMap_eq_nil_iff.mpr fun call member => ?_
  obtain ⟨command, _, rfl⟩ := List.mem_map.mp member
  rfl

/-- Calls that are answered have nothing to tell any more. -/
theorem pending_answered {traffic : Traffic σ}
    (answered : ∀ call ∈ traffic.calls, call.isAnswered = true) : traffic.pending = [] := by
  refine List.flatMap_eq_nil_iff.mpr fun call member => ?_
  have done := answered call member
  cases call with
  | answered outcome => rfl
  | asked | telling | carrying => cases done

/-- Once all calls are answered, in whatever order they went on, the events that were sent are what
has happened, each once. In the order in which it happened it discloses how every identifier stands:
the last creation or removal tells whether there is a rule, and executions are numbered from one
after each creation. The order in which events are sent is another. That creations and removals
balance can be told in any order, but the rest only for an identifier about which two calls never
have events pending at one time. -/
theorem announcements_disclose_registry (detached : collaborators.Detached) (engine : Engine σ)
    (distinct : Distinct engine.rules) (commands : List Command) (callers : List Nat) :
    let traffic : Traffic σ := ⟨engine, commands.map .asked⟩
    let followed := traffic.follow collaborators callers
    let last := followed.2.engine.rules
    (∀ call ∈ followed.2.calls, call.isAnswered = true) →
    ∃ sent, followed.2.engine.events = engine.events ++ sent ∧
      (happenings followed.1).Perm (sent.filter Event.bears) ∧
      ∀ id, Event.Discloses id (happenings followed.1) engine.rules last ∧
        (standing id engine.rules).isSome.toNat + sent.count (.created id) =
          (standing id last).isSome.toNat + sent.count (.removed id) ∧
        (Apart collaborators id callers traffic → Event.Discloses id sent engine.rules last) := by
  intro traffic followed last answered
  obtain ⟨sent, events, perm⟩ := follow_conserves detached callers traffic
  obtain ⟨_, learns⟩ := follow_recounts detached callers traffic distinct
  rw [pending_asked, List.nil_append, pending_answered answered, List.append_nil] at perm
  refine ⟨sent, events, perm, fun id => ⟨Event.discloses_of_learnAll? (learns id), ?_, ?_⟩⟩
  · have balance := Event.balance_of_learnAll? (learns id)
    rw [perm.count_eq, perm.count_eq, List.count_filter rfl, List.count_filter rfl] at balance
    exact balance
  · intro apart
    obtain ⟨same, told, inOrder⟩ := follow_in_order detached apart
    obtain rfl : sent = same := List.append_cancel_left (events.symm.trans told)
    rw [pending_asked, List.nil_append, pending_answered answered, List.append_nil] at inOrder
    refine Event.discloses_of_learnAll? ?_
    rw [← Event.learnAll?_filter, ← inOrder, Event.learnAll?_filter]
    exact learns id

/-- A request to register a rule that does nothing. -/
def idle (id : String) : NewRule := ⟨some id, "Idle", "", .event "student_enrolled", [], [], true⟩

/-- A rule is to be registered and carried out twice, while the one that welcomes is to be removed
and registered anew. -/
def errands : List Command :=
  [.add (idle "note"), .execute "note" .null, .execute "note" .null, .remove "welcome",
    .add (idle "welcome")]

/-- These errands are all run at once. -/
def crossing : Traffic Unit := ⟨Engine.welcoming, errands.map .asked⟩

/-- The two executions have begun both when the first is counted, but each is told before the next
one is counted, and so are the removal and the creation. The events tell what there is. -/
theorem crossing_in_order :
    let callers := [0, 0, 1, 1, 1, 2, 2, 2, 1, 1, 1, 2, 2, 2, 2, 1, 3, 3, 4, 4]
    let followed := crossing.follow .logging callers
    followed.2.engine.events.filter Event.bears =
        [.created "note", .executed "note" 1, .executed "note" 2, .removed "welcome",
          .created "welcome"] ∧
      ∀ id ∈ ["note", "welcome"], Event.Discloses id followed.2.engine.events
        Engine.welcoming.rules followed.2.engine.rules := by
  intro callers followed
  obtain ⟨told, answered, apart⟩ :
      followed.2.engine.events.filter Event.bears =
        [.created "note", .executed "note" 1, .executed "note" 2, .removed "welcome",
          .created "welcome"] ∧
      (∀ call ∈ followed.2.calls, call.isAnswered = true) ∧
      ∀ first ∈ callers.inits, ∀ id ∈ ["note", "welcome"],
        ((crossing.follow .logging first).2.pending.filter (Event.bearsOn id)).length ≤ 1 := by
    decide +kernel
  obtain ⟨sent, events, _, discloses⟩ := announcements_disclose_registry
    Collaborators.logging_detached Engine.welcoming Engine.wellFormed_welcoming.distinct errands
    callers answered
  obtain rfl : followed.2.engine.events = sent := events
  refine ⟨told, fun id member => ?_⟩
  obtain ⟨_, _, disclosed⟩ := discloses id
  exact disclosed fun first isPrefix => apart first ((List.mem_inits _ _).mpr isPrefix) id member

/-- The rule that welcomes is to be removed from where there are two of it. -/
def twinned : Traffic Unit :=
  ⟨{ Engine.welcoming with rules := [Engine.welcome, Engine.welcome] },
    [.asked (.remove "welcome")]⟩

/-- Here one execution is counted before the other and told after it, and the removal is told only
when the rule is there again. Of two rules under one identifier, one is still there when a removal
was told, and no other call is needed for that. -/
theorem crossing_misleads :
    let followed := crossing.follow .logging
      [0, 0, 1, 1, 1, 1, 2, 2, 2, 2, 2, 2, 2, 1, 1, 1, 3, 4, 4, 3]
    let parted := twinned.follow .logging [0, 0]
    Distinct crossing.engine.rules ∧
      (∀ call ∈ followed.2.calls, call.isAnswered = true) ∧
      followed.2.engine.events.filter Event.bears =
        [.created "note", .executed "note" 2, .executed "note" 1, .created "welcome",
          .removed "welcome"] ∧
      standing "welcome" followed.2.engine.rules = some 0 ∧
      (∀ call ∈ parted.2.calls, call.isAnswered = true) ∧
      parted.2.engine.events = [.removed "welcome"] ∧
      standing "welcome" parted.2.engine.rules = some 0 := by
  constructor
  · exact Engine.wellFormed_welcoming.distinct
  · decide +kernel

end Traffic
end CampusRules
