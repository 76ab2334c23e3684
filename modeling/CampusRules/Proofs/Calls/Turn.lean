import CampusRules.Proofs.Calls.Effect
import CampusRules.Proofs.Engine.Dispatch

/-!
# What a turn hands over and counts

Collaborators that reply by the message alone, and keep a record, leave nothing about a turn to
chance: what a rule hands over, and whether it runs, depends on its conditions and actions and
on the context, and on nothing that happened before. So it is known at every point of a call
that carries rules out what the call will still hand over and count, as long as nobody else
changes more about the rules than the record of their executions.
-/

namespace CampusRules

open Behaviour

/-- A rule without the record of its executions. -/
def Rule.body (rule : Rule) : Rule := { rule with executionCount := 0, lastExecuted := none }

/-- In a registry of distinct identifiers, whose rules have given bodies, a rule is found whose
body is one of these. -/
theorem find?_of_body {σ : Type} {engine : Engine σ} {bodies : List Rule} {rule : Rule}
    (distinct : Registry.Distinct bodies) (same : engine.rules.map Rule.body = bodies)
    (member : rule.body ∈ bodies) :
    ∃ current, engine.find? rule.id = some current ∧ current.body = rule.body := by
  have found : ({ engine with rules := bodies } : Engine σ).find? rule.body.id = some rule.body :=
    Engine.find?_of_mem distinct member
  rw [Engine.find?, ← same, List.find?_map] at found
  exact Option.map_eq_some_iff.mp found

/-- The message of a deed, if it is one that hands a message over. -/
def Deed.handoff? : Deed → Option Handoff
  | .handed handoff => some handoff
  | _ => none

/-- The messages among deeds, in order. -/
def Deed.handoffs (deeds : List Deed) : List Handoff := deeds.filterMap Deed.handoff?

/-- The messages of deeds in a row. -/
theorem Deed.handoffs_append (first second : List Deed) :
    Deed.handoffs (first ++ second) = Deed.handoffs first ++ Deed.handoffs second :=
  List.filterMap_append

section

variable (reply : Handoff → Except Failure Reply) (assisted : Bool) (context : Json)

/-- Without a memory it makes no difference what was received before. -/
theorem exchange_recording (actions : List Action) (state : List Handoff) :
    exchange (recording reply) assisted context actions state =
      exchange (recording reply) assisted context actions [] := by
  induction actions generalizing state with
  | nil => rfl
  | cons action rest inductionHypothesis =>
    have same : act (recording reply) assisted context action state =
        act (recording reply) assisted context action [] := rfl
    simp only [exchange, same]
    split
    · rfl
    · rename_i outcome
      rw [inductionHypothesis, inductionHypothesis ((recording reply).receive _ [])]

/-- The messages that a rule hands over at its turn. -/
def Rule.sends (rule : Rule) : List Handoff :=
  (turn (recording reply) assisted context rule []).handed

/-- Whether a rule runs at its turn. -/
def Rule.runs (rule : Rule) : Bool := (turn (recording reply) assisted context rule []).ran

/-- A rule whose conditions hold sends what its actions hand over. -/
theorem Rule.sends_eq (rule : Rule) : rule.sends reply assisted context =
    if Conditions.hold rule.conditions context then
      (exchange (recording reply) assisted context rule.actions []).handed else [] := by
  simp only [Rule.sends, turn]
  exact apply_ite Turn.handed _ _ _

/-- A rule runs if its conditions hold and its actions succeed. -/
theorem Rule.runs_eq (rule : Rule) : rule.runs reply assisted context =
    if Conditions.hold rule.conditions context then
      (exchange (recording reply) assisted context rule.actions []).outcome.isOk else false := by
  simp only [Rule.runs, turn]
  exact apply_ite Turn.ran _ _ _

/-- Rules that differ in their records only have the same turns. -/
theorem Rule.same_of_body {rule other : Rule} (same : rule.body = other.body) :
    rule.id = other.id ∧ rule.isActive = other.isActive ∧
      rule.sends reply assisted context = other.sends reply assisted context ∧
      rule.runs reply assisted context = other.runs reply assisted context := by
  have field {α : Type} (read : Rule → α) : read rule.body = read other.body := by rw [same]
  have conditions : rule.conditions = other.conditions := field Rule.conditions
  have actions : rule.actions = other.actions := field Rule.actions
  refine ⟨field Rule.id, field Rule.isActive, ?_, ?_⟩
  · rw [Rule.sends_eq, Rule.sends_eq, conditions, actions]
  · rw [Rule.runs_eq, Rule.runs_eq, conditions, actions]

/-- The messages that are still handed over at a stage of a turn. -/
def Stage.sends : Stage → List Handoff
  | .found rule _ => rule.sends reply assisted context
  | .acting _ _ _ left => (exchange (recording reply) assisted context left []).handed
  | _ => []

/-- The execution that is still counted at a stage of a turn, if the rule runs. -/
def Stage.credits : Stage → List String
  | .found rule _ => if rule.runs reply assisted context then [rule.id] else []
  | .acting rule _ _ left =>
    if (exchange (recording reply) assisted context left []).outcome.isOk then [rule.id] else []
  | _ => []

end

/-- The time that an execution is counted for, at a stage of a turn, is a given one. -/
def Stage.Timed (time : Instant) : Stage → Prop
  | .found _ moment | .acting _ moment _ _ => moment = time
  | _ => True

namespace Round

variable (reply : Handoff → Except Failure Reply) (assisted : Bool)

/-- The messages that a call still hands over, with these rules waiting for their turns. -/
def sends (round : Round) (waiting : List Rule) : List Handoff :=
  round.stage.sends reply assisted round.occasion.context ++
    waiting.flatMap (·.sends reply assisted round.occasion.context)

/-- The executions that a call still counts, with these rules waiting for their turns. -/
def credits (round : Round) (waiting : List Rule) : List String :=
  round.stage.credits reply assisted round.occasion.context ++
    (waiting.filter (·.runs reply assisted round.occasion.context)).map Rule.id

/-- A call has these rules waiting for their turns at one given time. -/
structure Awaits (time : Instant) (round : Round) (waiting : List Rule) : Prop where
  occasion : round.occasion.time = some time
  timed : round.stage.Timed time
  named : round.waiting = waiting.map Rule.id
  active : ∀ rule ∈ waiting, rule.isActive = true

/-- What one section does of what a call still has to do. -/
structure Does (time : Instant) (round : Round) (waiting : List Rule) (next : Round)
    (left : List Rule) (deeds : List Deed) : Prop where
  awaits : next.Awaits time left
  context : next.occasion = round.occasion
  suffix : left <:+ waiting
  sends : Deed.handoffs deeds ++ next.sends reply assisted left = round.sends reply assisted waiting
  counts : ∃ ids, Deed.amendments deeds = ids.map (Amendment.count · time) ∧
    ids ++ next.credits reply assisted left = round.credits reply assisted waiting

variable {reply assisted} {time : Instant} {round : Round} {waiting : List Rule}
  {found : Engine (List Handoff)}

/-- A section within a turn does a part of that turn, and lets the others wait. -/
theorem does_of_turn {stage : Stage} {ran : List String} {deeds : List Deed} (ids : List String)
    (awaits : round.Awaits time waiting) (timed : stage.Timed time)
    (sends : Deed.handoffs deeds ++ stage.sends reply assisted round.occasion.context =
      round.stage.sends reply assisted round.occasion.context)
    (amendments : Deed.amendments deeds = ids.map (Amendment.count · time))
    (credits : ids ++ stage.credits reply assisted round.occasion.context =
      round.stage.credits reply assisted round.occasion.context) :
    round.Does reply assisted time waiting { round with stage, ran } waiting deeds where
  awaits := ⟨awaits.occasion, timed, awaits.named, awaits.active⟩
  context := rfl
  suffix := List.suffix_refl waiting
  sends := by
    simp only [Round.sends, ← List.append_assoc]
    rw [sends]
  counts := by
    refine ⟨ids, amendments, ?_⟩
    simp only [Round.credits, ← List.append_assoc]
    rw [credits]

/-- The section that finds a rule does nothing yet, and the rule has the body of the one that
waits. -/
theorem does_find {rule current : Rule} {rest : List Rule} {moment : Instant}
    (awaits : round.Awaits time (rule :: rest)) (stage : round.stage = .next)
    (same : current.body = rule.body) (timed : moment = time) :
    round.Does reply assisted time (rule :: rest)
      { round with stage := .found current moment, waiting := rest.map Rule.id } rest
      [.looked rule.id (some current)] := by
  obtain ⟨named, _, sends, runs⟩ := Rule.same_of_body reply assisted
    round.occasion.context same
  constructor
  case awaits =>
    exact ⟨awaits.occasion, timed, rfl, fun other waits =>
      awaits.active other (List.mem_cons_of_mem _ waits)⟩
  case context => rfl
  case suffix => exact List.suffix_cons rule rest
  case sends => simp [Round.sends, stage, Stage.sends, sends, Deed.handoffs, Deed.handoff?]
  case counts =>
    refine ⟨[], rfl, ?_⟩
    cases ran : rule.runs reply assisted round.occasion.context <;>
      simp [Round.credits, stage, Stage.credits, runs, named, ran]

variable {collaborators : Collaborators (List Handoff)}

/-- Carrying out an action has the outcome that decides how the exchange goes on. -/
theorem exchange_cons_recording (behaves : collaborators.Behaves (recording reply))
    {action : Action} {left : List Action} {context : Json} {started acted : Engine (List Handoff)}
    {outcome : Except Failure Unit}
    (performed : Engine.perform collaborators action context started = (outcome, acted)) :
    exchange (recording reply) collaborators.assisted context (action :: left) [] =
      match outcome with
      | .error failure =>
        ⟨(action.message? collaborators.assisted context).toList, .error failure⟩
      | .ok () =>
        let others := exchange (recording reply) collaborators.assisted context left []
        ⟨(action.message? collaborators.assisted context).toList ++ others.handed,
          others.outcome⟩ := by
  obtain ⟨log, alike⟩ := Engine.perform_act behaves action context started
  have decided : outcome =
      (Behaviour.act (recording reply) collaborators.assisted context action []).outcome := by
    rw [performed] at alike
    exact congrArg Prod.fst alike
  cases outcome with
  | error failure =>
    simp only [exchange, ← decided]
    rfl
  | ok =>
    simp only [exchange, ← decided]
    rw [exchange_recording]
    rfl

/-- A section of a round does a part of what the call still has to do, if all rules that wait are
still registered with their bodies. It answers the call when nothing is left. -/
theorem Step.does (behaves : collaborators.Behaves (recording reply)) {deeds : List Deed}
    {after : Call} {left : Engine (List Handoff)}
    (step : round.Step collaborators found (deeds, after, left))
    (awaits : round.Awaits time waiting) (there : ∀ rule ∈ waiting, ∃ current,
      found.find? rule.id = some current ∧ current.body = rule.body) :
    (round.stage = .next ∧ waiting = [] ∧ deeds = [] ∧ after.isAnswered = true) ∨
      ∃ next others, after = .carrying next ∧
        round.Does reply collaborators.assisted time waiting next others deeds := by
  have registered (rule : Rule) (waits : rule ∈ waiting) : ∃ current,
      current.body = rule.body ∧ (found.find? rule.id).filter (·.isActive) = some current := by
    obtain ⟨current, finds, same⟩ := there rule waits
    refine ⟨current, same, ?_⟩
    have active : current.isActive = rule.isActive := congrArg (·.isActive) same
    rw [finds, Option.filter_some, active, awaits.active rule waits]
    rfl
  have timed := awaits.timed
  have moment : (round.occasion.moment found).1 = time := by
    simp only [Occasion.moment, awaits.occasion]
  have handed (message : Option Handoff) :
      Deed.handoffs (message.toList.map .handed) = message.toList ∧
        Deed.amendments (message.toList.map .handed) = [] := by
    cases message <;> exact ⟨rfl, rfl⟩
  cases step with
  | answers stage none =>
    have noneLeft : waiting = [] := List.map_eq_nil_iff.mp (awaits.named.symm.trans none)
    exact .inl ⟨stage, noneLeft, rfl, rfl⟩
  | passes stage waits version =>
    obtain ⟨rule, rest, rfl, rfl, rfl⟩ := List.map_eq_cons_iff.mp (awaits.named.symm.trans waits)
    obtain ⟨current, _, registered⟩ := registered rule List.mem_cons_self
    rw [registered] at version
    cases version
  | @finds _ _ found stage waits version =>
    obtain ⟨rule, rest, rfl, rfl, rfl⟩ := List.map_eq_cons_iff.mp (awaits.named.symm.trans waits)
    obtain ⟨current, same, registered⟩ := registered rule List.mem_cons_self
    obtain rfl : current = found := Option.some.inj (registered.symm.trans version)
    exact .inr ⟨_, rest, rfl, does_find awaits stage same moment⟩
  | skips stage holds =>
    refine .inr ⟨_, waiting, rfl, does_of_turn [] awaits trivial ?_ rfl ?_⟩
    · simp [stage, Stage.sends, Rule.sends_eq, holds, Deed.handoffs, Deed.handoff?]
    · simp [stage, Stage.credits, Rule.runs_eq, holds]
  | begins stage holds =>
    rw [stage] at timed
    refine .inr ⟨_, waiting, rfl, does_of_turn [] awaits timed ?_ rfl ?_⟩
    · simp [stage, Stage.sends, Rule.sends_eq, holds, Deed.handoffs, Deed.handoff?]
    · simp [stage, Stage.credits, Rule.runs_eq, holds]
  | acts stage performed =>
    rw [stage] at timed
    refine .inr ⟨_, waiting, rfl, does_of_turn [] awaits timed ?_ (handed _).2 ?_⟩
    · simp only [stage, Stage.sends, exchange_cons_recording behaves performed, (handed _).1]
    · simp only [stage, Stage.credits, exchange_cons_recording behaves performed, List.nil_append]
  | fails stage performed =>
    refine .inr ⟨_, waiting, rfl, does_of_turn [] awaits trivial ?_ (handed _).2 ?_⟩
    · simp only [stage, Stage.sends, exchange_cons_recording behaves performed, (handed _).1,
        List.append_nil]
    · simp only [stage, Stage.credits, exchange_cons_recording behaves performed]
      rfl
  | @misses rule _ _ stage | @counts rule _ _ _ stage =>
    rw [stage] at timed
    refine .inr ⟨_, waiting, rfl, does_of_turn [rule.id] awaits trivial ?_ ?_ ?_⟩
    · simp [stage, Stage.sends, exchange, Deed.handoffs, Deed.handoff?]
    · cases timed
      rfl
    · simp [stage, Stage.credits, exchange, Except.isOk, Except.toBool]
  | unstored stage | reads stage | writes stage | tells stage =>
    refine .inr ⟨_, waiting, rfl, does_of_turn [] awaits trivial ?_ rfl ?_⟩
    · simp [stage, Stage.sends, Deed.handoffs, Deed.handoff?]
    · simp [stage, Stage.credits]

end Round

variable {reply : Handoff → Except Failure Reply} {collaborators : Collaborators (List Handoff)}

/-- A call that is answered has handed over and counted what it had to, if the rules it has to
carry out were registered all the time with their bodies. -/
theorem Course.does (behaves : collaborators.Behaves (recording reply)) {round : Round}
    {time : Instant} {waiting : List Rule} {sections : List (Section (List Handoff))}
    {outcome : Except Failure Answer}
    (course : Course collaborators (.carrying round) sections (.answered outcome))
    (awaits : round.Awaits time waiting)
    (there : ∀ taken ∈ sections, ∀ rule ∈ waiting, ∃ current,
      taken.found.find? rule.id = some current ∧ current.body = rule.body) :
    Deed.handoffs (Section.allDeeds sections) =
        round.sends reply collaborators.assisted waiting ∧
      Deed.amendments (Section.allDeeds sections) =
        (round.credits reply collaborators.assisted waiting).map (Amendment.count · time) := by
  generalize start : Call.carrying round = call at course
  generalize finish : Call.answered outcome = last at course
  induction course generalizing round waiting with
  | done call =>
    subst start
    cases finish
  | @step caller call found rest last others inductionHypothesis =>
    subst start finish
    have step := round.step collaborators found
    rcases advanced : round.advance collaborators found with ⟨deeds, after, left⟩
    have advances : (Call.carrying round).advance collaborators found = _ := advanced
    rw [advanced] at step
    rw [advances] at others inductionHypothesis ⊢
    have now := there _ List.mem_cons_self
    rw [advances] at now
    simp only [Section.allDeeds, List.flatMap_cons, Deed.handoffs_append, Deed.amendments_append]
    rcases step.does behaves awaits now with ⟨stage, rfl, rfl, answered⟩ | ⟨next, left, rfl, does⟩
    · have silent : Section.allDeeds rest = [] := others.silent answered
      rw [Section.allDeeds] at silent
      rw [silent]
      simp [Round.sends, Round.credits, stage, Stage.sends, Stage.credits, Deed.handoffs,
        Deed.amendments]
    · have later (taken : Section (List Handoff)) (member : taken ∈ rest) (rule : Rule)
          (waits : rule ∈ left) :=
        there taken (List.mem_cons_of_mem _ member) rule (does.suffix.mem waits)
      obtain ⟨handed, counted⟩ := inductionHypothesis does.awaits later rfl rfl
      obtain ⟨ids, counts, credits⟩ := does.counts
      constructor
      · rw [← does.sends]
        exact congrArg (Deed.handoffs deeds ++ ·) handed
      · rw [← credits, List.map_append, counts]
        exact congrArg (ids.map (Amendment.count · time) ++ ·) counted

/-- The rules that a pass on a schedule carries out once it has selected them. -/
structure Carries (reply : Handoff → Except Failure Reply) (assisted : Bool) (now : Reading)
    (selected : List Rule) (deeds : List Deed) : Prop where
  handoffs : Deed.handoffs deeds =
    selected.flatMap (·.sends reply assisted (Engine.scheduleContext now.instant))
  amendments : Deed.amendments deeds =
    ((selected.filter (·.runs reply assisted (Engine.scheduleContext now.instant))).map
      Rule.id).map (Amendment.count · now.instant)

/-- A pass on a schedule selects the rules that are due, and has carried out exactly these by the
time that it is answered, if no rule has changed but for its record. -/
theorem Course.schedule (behaves : collaborators.Behaves (recording reply)) {now : Reading}
    {sections : List (Section (List Handoff))} {outcome : Except Failure Answer}
    (course : Course collaborators (.asked (.schedule (some now))) sections (.answered outcome))
    {bodies : List Rule} (distinct : Registry.Distinct bodies)
    (same : ∀ taken ∈ sections, taken.found.rules.map Rule.body = bodies) :
    ∃ chosen rest, sections = chosen :: rest ∧ chosen.deeds = [] ∧
      Carries reply collaborators.assisted now (chosen.found.dueRules now)
        (Section.allDeeds rest) := by
  cases course with
  | @step caller _ found rest _ others =>
    refine ⟨_, rest, rfl, rfl, ?_⟩
    have begun : Course collaborators (.carrying ⟨.schedule (some now),
        ⟨Engine.scheduleContext now.instant, "schedule", some now.instant⟩, .next,
        (found.dueRules now).map Rule.id, []⟩) rest (.answered outcome) := others
    have selected : ∀ rule ∈ found.dueRules now, rule ∈ found.rules ∧ rule.isActive = true := by
      intro rule member
      obtain ⟨present, due⟩ := List.mem_filter.mp member
      simp only [Bool.and_eq_true] at due
      exact ⟨present, due.1.1⟩
    have bodies_found : found.rules.map Rule.body = bodies := same _ List.mem_cons_self
    have awaits : Round.Awaits now.instant ⟨.schedule (some now),
        ⟨Engine.scheduleContext now.instant, "schedule", some now.instant⟩, .next,
        (found.dueRules now).map Rule.id, []⟩ (found.dueRules now) :=
      ⟨rfl, trivial, rfl, fun rule member => (selected rule member).2⟩
    obtain ⟨handoffs, amendments⟩ := begun.does behaves awaits (by
      intro taken member rule waits
      apply find?_of_body distinct (same taken (List.mem_cons_of_mem _ member))
      rw [← bodies_found]
      exact List.mem_map_of_mem (selected rule waits).1)
    exact ⟨handoffs, amendments⟩

end CampusRules
