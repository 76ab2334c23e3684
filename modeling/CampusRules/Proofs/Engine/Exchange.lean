import CampusRules.Proofs.Engine.Pass

/-!
# What passes between an engine and its collaborators

Collaborators that do not call back are a behaviour: by their own state, they reply to a
message and go on to another state. What an engine exchanges with them while it carries out
actions, or one rule after the other, is described here without the engine. No registry, no
event and no disk has a part in it, only the rules as they are given, the context, and the
replies.

The main statements say that an engine exchanges exactly that: actions are carried out with
the outcome, and leave the collaborators in the state, that the exchange tells of.
-/

namespace CampusRules

namespace Action

/-- Whether an action is passed over because nobody assists. -/
def isPassedOver (assisted : Bool) (action : Action) : Bool :=
  decide (action.kind = .aiAction ∧ assisted = false)

/-- The message that an action hands over on a context, if it hands over any. -/
def message? (assisted : Bool) (context : Json) (action : Action) : Option Handoff :=
  if action.isPassedOver assisted then none else (action.prepare context).toOption

end Action

/-- How collaborators reply to a message in a state, and the state that they are in then. -/
abbrev Behaviour (σ : Type) := Handoff → σ → Except Failure Reply × σ

/-- The messages that actions hand over, up to the first action that fails, and how that
ends. -/
structure Exchange where
  handed : List Handoff
  outcome : Except Failure Unit

/-- A rule that has had its turn: whether it ran, and the messages that it handed over. -/
structure Turn where
  rule : Rule
  ran : Bool
  handed : List Handoff

variable {σ : Type}

namespace Behaviour

/-- Collaborators that keep a record of what they are handed, and reply by the message alone. -/
def recording (reply : Handoff → Except Failure Reply) : Behaviour (List Handoff) :=
  fun handoff record => (reply handoff, record ++ [handoff])

/-- The state of collaborators that have received messages one after the other. -/
def receive (behaviour : Behaviour σ) (messages : List Handoff) (state : σ) : σ :=
  messages.foldl (fun reached handoff => (behaviour handoff reached).2) state

variable (behaviour : Behaviour σ) (assisted : Bool) (context : Json)

/-- What one action exchanges with collaborators in a state. -/
def act (action : Action) (state : σ) : Exchange where
  handed := (action.message? assisted context).toList
  outcome :=
    if action.isPassedOver assisted then .ok ()
    else match action.prepare context with
      | .error unfit => .error unfit.failure
      | .ok handoff => (behaviour handoff state).1.map fun _ => ()

/-- What actions exchange with collaborators in a state. -/
def exchange : List Action → σ → Exchange
  | [], _ => ⟨[], .ok ()⟩
  | action :: rest, state =>
    let first := act behaviour assisted context action state
    match first.outcome with
    | .error failure => ⟨first.handed, .error failure⟩
    | .ok () =>
      let others := exchange rest (behaviour.receive first.handed state)
      ⟨first.handed ++ others.handed, others.outcome⟩

/-- The turn of a rule. If its conditions do not hold, it hands nothing over. -/
def turn (rule : Rule) (state : σ) : Turn :=
  if Conditions.hold rule.conditions context then
    let exchanged := exchange behaviour assisted context rule.actions state
    ⟨rule, exchanged.outcome.isOk, exchanged.handed⟩
  else ⟨rule, false, []⟩

/-- The turns of rules one after the other. The next one begins in the state that the
messages of the one before have led to, whether or not that one ran. -/
def turns : List Rule → σ → List Turn
  | [], _ => []
  | rule :: rest, state =>
    let first := turn behaviour assisted context rule state
    first :: turns rest (behaviour.receive first.handed state)

/-- All messages that turns hand over, in order. -/
def messages (taken : List Turn) : List Handoff := taken.flatMap Turn.handed

/-- The identifiers of the rules that ran, in order. -/
def ran (taken : List Turn) : List String := (taken.filter Turn.ran).map (·.rule.id)

/-- Messages in a row are received one after the other. -/
theorem receive_append (first second : List Handoff) (state : σ) :
    behaviour.receive (first ++ second) state =
      behaviour.receive second (behaviour.receive first state) :=
  List.foldl_append

/-- A record grows by what is received. -/
theorem receive_recording (reply : Handoff → Except Failure Reply)
    (messages record : List Handoff) :
    (recording reply).receive messages record = record ++ messages := by
  induction messages generalizing record with
  | nil => simp [receive]
  | cons handoff rest inductionHypothesis =>
    have later := inductionHypothesis (record ++ [handoff])
    rw [List.append_assoc] at later
    exact later

/-- Every rule has its turn, in order. -/
theorem rules_turns (rules : List Rule) (state : σ) :
    (turns behaviour assisted context rules state).map Turn.rule = rules := by
  induction rules generalizing state with
  | nil => rfl
  | cons rule rest inductionHypothesis =>
    have first : (turn behaviour assisted context rule state).rule = rule := by
      unfold turn
      split <;> rfl
    simp [turns, first, inductionHypothesis]

end Behaviour

namespace Collaborators

/-- Collaborators that reply and change by their behaviour, and do nothing to the engine but
log. -/
def Behaves (collaborators : Collaborators σ) (behaviour : Behaviour σ) : Prop :=
  ∀ handoff (engine : Engine σ), ∃ log, collaborators.deliver handoff engine =
    ((behaviour handoff engine.outside).1,
      { engine with outside := (behaviour handoff engine.outside).2, log })

/-- Collaborators that follow a behaviour and log nothing. -/
def following (assisted : Bool) (behaviour : Behaviour σ) : Collaborators σ :=
  ⟨assisted, fun handoff engine => ((behaviour handoff engine.outside).1,
    { engine with outside := (behaviour handoff engine.outside).2 })⟩

/-- They do follow it. -/
theorem following_behaves (assisted : Bool) (behaviour : Behaviour σ) :
    (following assisted behaviour).Behaves behaviour :=
  fun _ _ => ⟨_, rfl⟩

/-- Collaborators that follow a behaviour are detached. -/
theorem Behaves.detached {collaborators : Collaborators σ} {behaviour : Behaviour σ}
    (behaves : collaborators.Behaves behaviour) : collaborators.Detached := by
  intro handoff engine
  obtain ⟨log, delivered⟩ := behaves handoff engine
  exact ⟨_, log, _, by rw [delivered]⟩

end Collaborators

namespace Engine

open Behaviour Registry

variable {collaborators : Collaborators σ} {behaviour : Behaviour σ}

section

variable (behaves : collaborators.Behaves behaviour)
include behaves

/-- Carrying out an action exchanges exactly what the action exchanges with the behaviour.
Besides, only the log grows. -/
theorem perform_act (action : Action) (context : Json) (engine : Engine σ) :
    let exchanged := act behaviour collaborators.assisted context action engine.outside
    ∃ log, perform collaborators action context engine = (exchanged.outcome, { engine with
      outside := behaviour.receive exchanged.handed engine.outside, log }) := by
  by_cases passed : action.isPassedOver collaborators.assisted = true
  · have nothing : perform collaborators action context engine = (.ok (), engine) :=
      if_pos (by simpa [Action.isPassedOver] using passed)
    exact ⟨engine.log, by simp [nothing, act, Action.message?, passed, receive]⟩
  · have turnedTo : ¬(action.kind = .aiAction ∧ collaborators.assisted = false) := by
      simpa [Action.isPassedOver] using passed
    cases prepared : action.prepare context with
    | error unfit =>
      exact ⟨engine.log, by
        simp [perform, act, Action.message?, passed, turnedTo, prepared, receive, Except.toOption]⟩
    | ok handoff =>
      obtain ⟨log, delivered⟩ := behaves handoff engine
      rcases answer : behaviour handoff engine.outside with ⟨failure | reply, next⟩
      · exact ⟨log, by
          simp [perform, act, Action.message?, passed, turnedTo, prepared, receive,
            Except.toOption, delivered, answer, Except.map]⟩
      · let replied : Engine σ := { engine with outside := next, log }
        refine ⟨(replied.acknowledge action reply).log, ?_⟩
        have aside : replied.acknowledge action reply =
            { replied with log := (replied.acknowledge action reply).log } := by
          cases reply <;> rfl
        simpa [perform, act, Action.message?, passed, turnedTo, prepared, receive,
          Except.toOption, delivered, answer, Except.map] using aside

/-- Carrying out actions exchanges exactly what the actions exchange with the behaviour.
Besides, only the log and the events about actions grow. -/
theorem performFrom_exchange (id : String) (context : Json) (actions : List Action) (index : Nat)
    (engine : Engine σ) :
    let exchanged := exchange behaviour collaborators.assisted context actions engine.outside
    ∃ log actionEvents, performFrom collaborators id context index actions engine =
      (exchanged.outcome, { engine with
        outside := behaviour.receive exchanged.handed engine.outside, log, actionEvents }) := by
  induction actions generalizing index engine with
  | nil => exact ⟨_, _, rfl⟩
  | cons action rest inductionHypothesis =>
    obtain ⟨log, performed⟩ := perform_act behaves action context
      (engine.announceAction (.started id index action.kind))
    have state : (engine.announceAction (.started id index action.kind)).outside =
        engine.outside := rfl
    rw [state] at performed
    generalize first : act behaviour collaborators.assisted context action engine.outside =
      exchanged at performed
    rcases exchanged with ⟨handed, failure | _⟩
    · refine ⟨log, engine.actionEvents ++ [.started id index action.kind] ++
        [.failed id index failure.message], ?_⟩
      simp only [performFrom, exchange, performed, first]
      rfl
    · let acted : Engine σ := { engine with
        outside := behaviour.receive handed engine.outside, log
        actionEvents := engine.actionEvents ++ [.started id index action.kind] ++
          [.completed id index] }
      obtain ⟨lastLog, actionEvents, others⟩ := inductionHypothesis (index + 1) acted
      refine ⟨lastLog, actionEvents, ?_⟩
      simp only [performFrom, exchange, performed, first, receive_append]
      exact others

end

end Engine
end CampusRules
