import CampusRules.Proofs.Calls.Step
import CampusRules.Proofs.Engine.Dispatch

/-!
# One version of a rule

A call that carries out rules gives each of those that it has selected a turn, in order. A turn
begins by looking the rule up, and what was found decides about all of it: the conditions and
the actions of that one version are what the turn works with, however often the rule is
changed, deactivated or removed before the turn is over. A rule that is gone or inactive when
its turn comes is passed over without a trace.

At the end the execution is counted for the rule that is registered under the identifier by
then. Nothing but its record changes, and no rule comes back.

All of this is so in any order of the callers, and for collaborators that do whatever they like
to the engine while they are handed a message.
-/

namespace CampusRules

variable {σ : Type}

/-- The messages of actions, the count that follows them, and the saving. -/
def Rule.performing (assisted : Bool) (context : Json) (rule : Rule) (time : Instant)
    (outcome : Except Failure Unit) (actions : List Action) : List Deed :=
  (actions.filterMap (·.message? assisted context)).map .handed ++
    [.amended (.count rule.id time), .saved outcome]

/-- What is done about a version of a rule once it is found, as long as nothing fails. -/
def Rule.proceeding (assisted : Bool) (context : Json) (rule : Rule) (time : Instant)
    (outcome : Except Failure Unit) : List Deed :=
  if Conditions.hold rule.conditions context then
    .decided true :: rule.performing assisted context time outcome rule.actions
  else [.decided false]

/-- What is still done at a stage of a turn, as long as nothing fails. -/
def Stage.remaining (assisted : Bool) (context : Json) (outcome : Except Failure Unit) :
    Stage → List Deed
  | .next | .ended _ _ => []
  | .found rule time => rule.proceeding assisted context time outcome
  | .acting rule time _ left => rule.performing assisted context time outcome left
  | .counted _ _ | .writing _ _ _ => [.saved outcome]

/-- What a section of a turn may do to the registry. While a collaborator is handed a message,
that collaborator may do anything, and the turn itself does nothing. An execution that is
counted changes the record of a rule with its identifier and nothing else about the engine.
Apart from that, no rule is touched. -/
def Section.Spares (collaborators : Collaborators σ) (taken : Section σ) : Prop :=
  match taken.deeds with
  | [.handed handoff] => ∃ met : Engine σ, met.rules = taken.found.rules ∧
      taken.left.rules = (collaborators.deliver handoff met).2.rules
  | [.amended (.count id time)] => taken.left = { taken.found with rules := taken.left.rules } ∧
      List.Forall₂ (fun old new => new = old ∨ old.id = id ∧ new = old.executed time)
        taken.found.rules taken.left.rules
  | _ => taken.left.rules = taken.found.rules

/-- The turn of a rule in a call: the section that looked the rule up, and those that followed
as long as it lasted. -/
structure Attempt (σ : Type) where
  id : String
  looked : Section σ
  followed : List (Section σ)

namespace Attempt

/-- The version of the rule that was registered and active when it was looked up. -/
def version? (attempt : Attempt σ) : Option Rule :=
  (attempt.looked.found.find? attempt.id).filter (·.isActive)

/-- All sections of a turn. -/
def sections (attempt : Attempt σ) : List (Section σ) := attempt.looked :: attempt.followed

/-- A turn that works with one version of its rule. To look it up consumes a reading of the
clock at most. Without an active version nothing follows. With one, everything that is done is
done by that version, up to where the turn has got or something has failed. -/
structure Consistent (collaborators : Collaborators σ) (context : Json) (attempt : Attempt σ) :
    Prop where
  lookedUp : attempt.looked.deeds = [.looked attempt.id attempt.version?]
  unchanged : attempt.looked.left =
    { attempt.looked.found with supply := attempt.looked.left.supply }
  passedOver : attempt.version? = none → attempt.followed = []
  carriedOut : ∀ rule, attempt.version? = some rule → ∃ time outcome,
    Section.allDeeds attempt.followed <+:
      rule.proceeding collaborators.assisted context time outcome
  spares : ∀ taken ∈ attempt.followed, taken.Spares collaborators

end Attempt

/-- How a call goes on that still has to look up rules: each of them has its turn, in order, and
when all have had theirs nothing is done any more. -/
structure Divides (collaborators : Collaborators σ) (context : Json) (waiting : List String)
    (last : Call) (attempts : List (Attempt σ)) (closing : List (Section σ)) : Prop where
  consistent : ∀ attempt ∈ attempts, attempt.Consistent collaborators context
  order : attempts.map Attempt.id <+: waiting
  all : last.isAnswered = true → attempts.map Attempt.id = waiting
  idle : ∀ taken ∈ closing, taken.deeds = [] ∧ taken.left = taken.found

/-- How a call goes on from some point of a turn: that turn is finished first. -/
structure Round.Finishes (collaborators : Collaborators σ) (round : Round) (last : Call)
    (current : List (Section σ)) (attempts : List (Attempt σ)) (closing : List (Section σ)) :
    Prop where
  remaining : ∃ outcome, Section.allDeeds current <+:
    round.stage.remaining collaborators.assisted round.occasion.context outcome
  finished : round.stage = .next → current = []
  spares : ∀ taken ∈ current, taken.Spares collaborators
  divides : Divides collaborators round.occasion.context round.waiting last attempts closing

/-- The sections of a call that is at some point of a turn. -/
def Round.Goes (collaborators : Collaborators σ) (round : Round) (sections : List (Section σ))
    (last : Call) : Prop :=
  ∃ current attempts closing, sections =
      current ++ attempts.flatMap Attempt.sections ++ closing ∧
    round.Finishes collaborators last current attempts closing

variable {collaborators : Collaborators σ}

namespace Round

/-- A call that has not gone on has finished nothing. -/
theorem goes_nil (round : Round) : round.Goes collaborators [] (.carrying round) := by
  refine ⟨[], [], [], rfl, ⟨.ok (), List.nil_prefix⟩, fun _ => rfl, by simp, ?_⟩
  exact ⟨by simp, List.nil_prefix, nofun, by simp⟩

/-- A turn begins where the one before is over. -/
theorem Goes.turn {round next : Round} {id : String} {waiting : List String} {taken : Section σ}
    {sections : List (Section σ)} {last : Call} (goes : next.Goes collaborators sections last)
    (waits : round.waiting = id :: waiting)
    (occasion : next.occasion = round.occasion) (rest : next.waiting = waiting)
    (lookedUp : taken.deeds = [.looked id ((taken.found.find? id).filter (·.isActive))])
    (unchanged : taken.left = { taken.found with supply := taken.left.supply })
    (stage : match (taken.found.find? id).filter (·.isActive) with
      | none => next.stage = .next
      | some rule => ∃ time, next.stage = .found rule time) :
    round.Goes collaborators (taken :: sections) last := by
  obtain ⟨current, attempts, closing, rfl, finishes⟩ := goes
  obtain ⟨⟨outcome, remaining⟩, none, spares, divides⟩ := finishes
  let attempt : Attempt σ := ⟨id, taken, current⟩
  have consistent : attempt.Consistent collaborators round.occasion.context := by
    refine ⟨lookedUp, unchanged, fun missing => ?_, fun rule found => ?_, spares⟩
    · have version : (taken.found.find? id).filter (·.isActive) = Option.none := missing
      rw [version] at stage
      exact none stage
    · have version : (taken.found.find? id).filter (·.isActive) = some rule := found
      rw [version] at stage
      obtain ⟨time, stage⟩ := stage
      rw [stage, occasion] at remaining
      exact ⟨time, outcome, remaining⟩
  refine ⟨[], attempt :: attempts, closing, by simp [attempt, Attempt.sections], ?_⟩
  refine ⟨⟨outcome, List.nil_prefix⟩, fun _ => rfl, by simp, ?_⟩
  rw [waits]
  rw [rest, occasion] at divides
  constructor
  case consistent => exact List.forall_mem_cons.mpr ⟨consistent, divides.consistent⟩
  case order => exact List.prefix_cons_inj id |>.mpr divides.order
  case all =>
    intro answered
    exact congrArg (id :: ·) (divides.all answered)
  case idle => exact divides.idle

/-- An action that hands nothing over leaves the engine as it is. -/
theorem perform_of_silent {action : Action} {context : Json}
    (silent : action.message? collaborators.assisted context = none) (engine : Engine σ) :
    (Engine.perform collaborators action context engine).2 = engine := by
  by_cases passed : action.kind = .aiAction ∧ collaborators.assisted = false
  · simp [Engine.perform, passed]
  · cases prepared : action.prepare context with
    | error unfit => simp [Engine.perform, passed, prepared]
    | ok handoff =>
      simp [Action.message?, Action.isPassedOver, passed, prepared, Except.toOption] at silent

/-- An action that hands a message over leaves the registry that its collaborator leaves. -/
theorem perform_of_message {action : Action} {context : Json} {handoff : Handoff}
    (message : action.message? collaborators.assisted context = some handoff)
    (engine : Engine σ) :
    (Engine.perform collaborators action context engine).2.rules =
      (collaborators.deliver handoff engine).2.rules := by
  by_cases passed : action.kind = .aiAction ∧ collaborators.assisted = false
  · simp [Action.message?, Action.isPassedOver, passed] at message
  · cases prepared : action.prepare context with
    | error unfit =>
      simp [Action.message?, Action.isPassedOver, passed, prepared, Except.toOption] at message
    | ok prepared' =>
      obtain rfl : prepared' = handoff := by
        simpa [Action.message?, Action.isPassedOver, passed, prepared, Except.toOption]
          using message
      rcases delivered : collaborators.deliver prepared' engine with ⟨_ | reply, after⟩
      · simp [Engine.perform, passed, prepared, delivered]
      · cases reply <;>
          simp [Engine.perform, passed, prepared, delivered, Engine.acknowledge, Engine.record]

/-- What a call does whose round has come to some point with a section. It is then still a
round, or answered. -/
def GoesOn (collaborators : Collaborators σ) (call : Call) (sections : List (Section σ))
    (last : Call) : Prop :=
  match call with
  | .carrying reached => reached.Goes collaborators sections last
  | .answered _ => last.isAnswered = true ∧
      ∀ taken ∈ sections, taken.deeds = [] ∧ taken.left = taken.found
  | _ => True

variable {round : Round} {found : Engine σ} {sections : List (Section σ)} {last : Call}

/-- A section takes a turn on to another stage, and does what comes first of what remains. -/
theorem goes_within {taken : Section σ} {stage : Stage} {ran : List String}
    (others : GoesOn collaborators (.carrying { round with stage, ran }) sections last)
    (begun : round.stage ≠ .next) (spares : taken.Spares collaborators)
    (first : ∀ outcome, ∃ outcome',
      taken.deeds ++ stage.remaining collaborators.assisted round.occasion.context outcome <+:
        round.stage.remaining collaborators.assisted round.occasion.context outcome') :
    round.Goes collaborators (taken :: sections) last := by
  obtain ⟨current, attempts, closing, rfl, ⟨outcome, remaining⟩, _, later, divides⟩ := others
  refine ⟨taken :: current, attempts, closing, rfl, ?_, fun next => (begun next).elim, ?_, divides⟩
  · obtain ⟨outcome', before⟩ := first outcome
    refine ⟨outcome', List.IsPrefix.trans ?_ before⟩
    exact List.prefix_append_right_inj _ |>.mpr remaining
  · exact List.forall_mem_cons.mpr ⟨spares, later⟩

/-- A section that carries out an action hands over what the action hands over, which is what
remains first, and leaves the rules to the collaborators. -/
theorem spares_act {rule : Rule} {index : Nat} {action : Action} {caller : Nat} {left : Engine σ}
    (rules : left.rules = (Engine.perform collaborators action round.occasion.context
      (found.announceAction (.started rule.id index action.kind))).2.rules) :
    Section.Spares collaborators ⟨caller, found,
      (action.message? collaborators.assisted round.occasion.context).toList.map .handed,
      left⟩ := by
  cases message : action.message? collaborators.assisted round.occasion.context with
  | none =>
    rw [perform_of_silent message] at rules
    exact rules
  | some handoff =>
    rw [perform_of_message message] at rules
    exact ⟨found.announceAction (.started rule.id index action.kind), rfl, rules⟩

/-- What remains of an action that is carried out, and of those after it. -/
theorem remaining_acting {rule : Rule} {time : Instant} {index : Nat} {action : Action}
    {left : List Action} (stage : round.stage = .acting rule time index (action :: left))
    (outcome : Except Failure Unit) :
    round.stage.remaining collaborators.assisted round.occasion.context outcome =
      (action.message? collaborators.assisted round.occasion.context).toList.map .handed ++
        rule.performing collaborators.assisted round.occasion.context time outcome left := by
  simp only [stage, Stage.remaining]
  cases message : action.message? collaborators.assisted round.occasion.context <;>
    simp [Rule.performing, message]

/-- A section of a round comes before what the round goes on to do. -/
theorem goes_cons {caller : Nat} {deeds : List Deed} {after : Call} {left : Engine σ}
    (step : round.Step collaborators found (deeds, after, left))
    (others : GoesOn collaborators after sections last) :
    round.Goes collaborators (⟨caller, found, deeds, left⟩ :: sections) last := by
  cases step with
  | answers stage waiting =>
    obtain ⟨answered, idle⟩ := others
    refine ⟨[], [], ⟨caller, found, [], found⟩ :: sections, rfl, ⟨.ok (), List.nil_prefix⟩,
      fun _ => rfl, by simp, by simp, List.nil_prefix, fun _ => waiting.symm, ?_⟩
    exact List.forall_mem_cons.mpr ⟨⟨rfl, rfl⟩, idle⟩
  | passes stage waits version =>
    exact Goes.turn others waits rfl rfl (by rw [version]) (round.occasion.moment_engine found)
      (by simp only [version])
  | finds stage waits version =>
    exact Goes.turn others waits rfl rfl (by rw [version]) (round.occasion.moment_engine found)
      (by simp only [version]; exact ⟨_, rfl⟩)
  | skips stage holds =>
    refine goes_within others (by simp [stage]) rfl ?_
    intro outcome
    exact ⟨outcome, by simp [stage, Stage.remaining, Rule.proceeding, holds]⟩
  | begins stage holds =>
    refine goes_within others (by simp [stage]) rfl ?_
    intro outcome
    exact ⟨outcome, by simp [stage, Stage.remaining, Rule.proceeding, holds]⟩
  | acts stage performed =>
    refine goes_within others (by simp [stage]) (spares_act (by rw [performed]; rfl)) ?_
    intro outcome
    exact ⟨outcome, by rw [remaining_acting stage]; exact List.prefix_refl _⟩
  | fails stage performed =>
    refine goes_within others (by simp [stage]) (spares_act (by rw [performed]; rfl)) ?_
    intro outcome
    refine ⟨outcome, ?_⟩
    rw [remaining_acting stage]
    exact (List.prefix_append_right_inj _).mpr List.nil_prefix
  | misses stage gone =>
    refine goes_within others (by simp [stage]) ⟨rfl, List.forall₂_same.mpr fun _ _ => .inl rfl⟩ ?_
    intro outcome
    exact ⟨outcome, by simp [stage, Stage.remaining, Rule.performing]⟩
  | @counts rule time _ _ stage _ =>
    have counted : List.Forall₂
        (fun old new => new = old ∨ old.id = rule.id ∧ new = old.executed time)
        found.rules (Amendment.apply found.rules (.count rule.id time)) :=
      Amendment.forall₂_alterFirst (fun _ => .inl rfl) fun _ same => .inr ⟨same, rfl⟩
    refine goes_within others (by simp [stage]) ⟨rfl, counted⟩ ?_
    intro outcome
    exact ⟨outcome, by simp [stage, Stage.remaining, Rule.performing]⟩
  | unstored stage | reads stage =>
    refine goes_within others (by simp [stage]) rfl ?_
    intro outcome
    exact ⟨outcome, by simp [stage, Stage.remaining]⟩
  | @writes id number snapshot stage =>
    have same : (found.save snapshot).2.rules = found.rules := by rw [Engine.save_changes_disk]
    refine goes_within others (by simp [stage]) same ?_
    intro _
    exact ⟨(found.save snapshot).1, by simp [stage, Stage.remaining]⟩
  | tells stage =>
    refine goes_within others (by simp [stage]) rfl ?_
    intro outcome
    exact ⟨outcome, by simp [stage, Stage.remaining]⟩

end Round

/-- The sections of a call from some point of a turn on are what is left of that turn, and then
the turns of the rules that wait. -/
theorem Course.goes {round : Round} {sections : List (Section σ)} {last : Call}
    (course : Course collaborators (.carrying round) sections last) :
    round.Goes collaborators sections last := by
  generalize start : Call.carrying round = call at course
  induction course generalizing round with
  | done call =>
    subst start
    exact round.goes_nil
  | @step caller call found rest last others inductionHypothesis =>
    subst start
    have step := round.step collaborators found
    rcases advanced : round.advance collaborators found with ⟨deeds, after, left⟩
    have advances : (Call.carrying round).advance collaborators found = _ := advanced
    rw [advanced] at step
    rw [advances] at others inductionHypothesis ⊢
    apply Round.goes_cons step
    cases after with
    | carrying next => exact inductionHypothesis rfl
    | answered outcome =>
      obtain ⟨rfl, idle⟩ := others.idle
      exact ⟨rfl, idle⟩
    | asked | telling => trivial

/-- The rules that a command selects on an engine to give them turns, and what they get to
see. -/
inductive Command.Selects : Command → Engine σ → Json → List String → Prop where
  | execute (id : String) (context : Json) (found : Engine σ) :
    Selects (.execute id context) found context [id]
  | trigger (event : String) (context : Json) (found : Engine σ) :
    Selects (.trigger event context) found context (found.listeners event)
  | schedule (now : Reading) (found : Engine σ) :
    Selects (.schedule (some now)) found (Engine.scheduleContext now.instant) (found.due now)
  | clock (now : Reading) (found : Engine σ) :
    Selects (.schedule none) found (Engine.scheduleContext now.instant) (found.due now)

/-- A call that begins its round at once selects the rules on the engine that it finds. -/
theorem Course.begins {command : Command} {occasion : Occasion}
    {selection : Engine σ → List String} {sections : List (Section σ)} {last : Call}
    (begins : ∀ found, Call.start collaborators command found =
      ([], .begin command occasion (selection found), found))
    (course : Course collaborators (.asked command) sections last) :
    (sections = [] ∧ last = .asked command) ∨ ∃ chosen attempts closing,
      sections = chosen :: (attempts.flatMap Attempt.sections ++ closing) ∧
      (chosen.deeds = [] ∧ chosen.left = chosen.found) ∧
      Divides collaborators occasion.context (selection chosen.found) last attempts closing := by
  cases course with
  | done => exact .inl ⟨rfl, rfl⟩
  | @step caller _ found rest _ others =>
    have advanced : (Call.asked command).advance collaborators found =
      ([], .begin command occasion (selection found), found) := begins found
    rw [advanced] at others ⊢
    obtain ⟨current, attempts, closing, divided, finishes⟩ := others.goes
    obtain rfl : current = [] := finishes.finished rfl
    exact .inr ⟨_, attempts, closing, by rw [divided]; rfl, ⟨rfl, rfl⟩, finishes.divides⟩

/-- How the sections of a call divide that is asked to carry rules out. Up to the one that
selects the rules, they change nothing but what the clock shows next. -/
structure Command.Divided (collaborators : Collaborators σ) (command : Command)
    (sections : List (Section σ)) (last : Call) (opening : List (Section σ)) (chosen : Section σ)
    (attempts : List (Attempt σ)) (closing : List (Section σ)) : Prop where
  all : sections = opening ++ chosen :: (attempts.flatMap Attempt.sections ++ closing)
  opens : ∀ taken ∈ opening ++ [chosen], taken.deeds = [] ∧
    taken.left = { taken.found with supply := taken.left.supply }
  selects : ∃ context waiting, command.Selects chosen.found context waiting ∧
    Divides collaborators context waiting last attempts closing

/-- A call that is asked to carry rules out selects them, unless it has not got that far, and
gives them their turns. -/
theorem Course.divided {command : Command} {sections : List (Section σ)} {last : Call}
    (course : Course collaborators (.asked command) sections last)
    (carries : command.carriesOut = true) :
    ((∃ still, last = .asked still) ∧ ∀ taken ∈ sections, taken.deeds = []) ∨
      ∃ opening chosen attempts closing,
        command.Divided collaborators sections last opening chosen attempts closing := by
  have at_once {asked : Command} {occasion : Occasion} {selection : Engine σ → List String}
      (opening : List (Section σ)) {others : List (Section σ)}
      (begins : ∀ found, Call.start collaborators asked found =
        ([], .begin asked occasion (selection found), found))
      (selects : ∀ found : Engine σ, command.Selects found occasion.context (selection found))
      (before : ∀ taken ∈ opening, taken.deeds = [] ∧
        taken.left = { taken.found with supply := taken.left.supply })
      (all : sections = opening ++ others)
      (course : Course collaborators (.asked asked) others last) :
      ((∃ still, last = .asked still) ∧ ∀ taken ∈ sections, taken.deeds = []) ∨
        ∃ opening chosen attempts closing,
          command.Divided collaborators sections last opening chosen attempts closing := by
    rcases course.begins begins with ⟨rfl, rfl⟩ | ⟨chosen, attempts, closing, rfl, same, divides⟩
    · refine .inl ⟨⟨asked, rfl⟩, ?_⟩
      rw [all, List.append_nil]
      exact fun taken member => (before taken member).1
    · refine .inr ⟨opening, chosen, attempts, closing, all, ?_, _, _, selects _, divides⟩
      intro taken member
      rcases List.mem_append.mp member with earlier | last
      · exact before taken earlier
      · obtain rfl := List.mem_singleton.mp last
        exact ⟨same.1, by rw [same.2]⟩
  cases command with
  | execute id context =>
    exact at_once [] (fun _ => rfl) (.execute id context) (by simp) rfl course
  | trigger event context =>
    exact at_once [] (fun _ => rfl) (.trigger event context) (by simp) rfl course
  | schedule now =>
    cases now with
    | some now => exact at_once [] (fun _ => rfl) (.schedule now) (by simp) rfl course
    | none =>
      cases course with
      | done => exact .inl ⟨⟨_, rfl⟩, by simp⟩
      | @step caller _ found rest _ others =>
        refine at_once [_] (fun _ => rfl) (.clock found.look.1) ?_ rfl others
        simp only [List.mem_singleton, forall_eq]
        exact ⟨rfl, rfl⟩
  | _ => cases carries

namespace Traffic

/-- Whatever order calls go on in, and whatever collaborators do, a call that carries rules out
selects them once and gives each of them its turn. A turn looks its rule up and works with the
version that was registered and active then: that version's conditions decide, its actions are
carried out, and its execution is counted. A rule that is gone or inactive at its turn is passed
over, with nothing changed and nothing sent. The turn touches no rule but to count, and that
changes the record of the rule which is registered by then and nothing else. -/
theorem executes_one_version (collaborators : Collaborators σ) (traffic : Traffic σ)
    (callers : List Nat) (caller : Nat) (command : Command)
    (asked : traffic.calls[caller]? = some (.asked command))
    (carries : command.carriesOut = true) :
    let followed := traffic.follow collaborators callers
    let own := Section.of caller followed.1
    ∃ last, followed.2.calls[caller]? = some last ∧
      (((∃ still, last = .asked still) ∧ ∀ taken ∈ own, taken.deeds = []) ∨
        ∃ opening chosen attempts closing,
          command.Divided collaborators own last opening chosen attempts closing) := by
  intro followed own
  obtain ⟨last, reached, course⟩ := course_follow collaborators callers traffic asked
  exact ⟨last, reached, course.divided carries⟩

/-- An event comes, and before its rules have all had their turns one of them is changed and
another one removed. -/
def changing : Traffic (List Handoff) where
  engine := Engine.completing
  calls := [.asked (.trigger "course_completed" .null),
    .asked (.update "certificate" { isActive := some false, actions := some [] }),
    .asked (.remove "survey")]

/-- The certificate is changed between its two messages, and still sent as it was. The survey is
removed before its turn, and there is none. -/
theorem changing_executes_one_version :
    let collaborators := Collaborators.following false (Behaviour.recording fun _ => .ok .done)
    let callers := List.replicate 10 0 ++ [1, 2] ++ List.replicate 6 0
    let followed := changing.follow collaborators callers
    let own := Section.of 0 followed.1
    followed.2.engine.outside = [.createRecord ⟨"transcripts", []⟩,
      .createRecord ⟨"certificates", []⟩, .email ⟨"a@x.com", "Done", none, []⟩] ∧
    (followed.2.engine.rules.map fun rule => (rule.id, rule.isActive, rule.executionCount)) =
      [("transcript", true, 1), ("certificate", false, 1)] ∧
    ∃ last, followed.2.calls[0]? = some last ∧
      (((∃ still, last = .asked still) ∧ ∀ taken ∈ own, taken.deeds = []) ∨
        ∃ opening chosen attempts closing, Command.Divided collaborators
          (.trigger "course_completed" .null) own last opening chosen attempts closing) := by
  intro collaborators callers followed own
  refine ⟨by decide +kernel, by decide +kernel, ?_⟩
  exact executes_one_version collaborators changing callers 0 _ rfl rfl

end Traffic
end CampusRules
