import CampusRules.Action.Preparation
import CampusRules.Engine.Basic
import CampusRules.Rule.Conditions
import CampusRules.Rule.Schedule

/-!
# Carrying rules out

An execution looks its rule up once and works with what it found: whether the
conditions hold, and every action, come from that one version of the rule. The
actions are carried out in order up to the first that fails; what was handed over
by then is not taken back. Only when all of them succeed is the execution
credited, to the rule that is registered under the identifier by then.

Collaborators may do anything to the engine while they are handed a message.

An event, and the passing of time, select the identifiers of rules first and then
carry them out one after the other, so a rule may be gone when its turn comes.
-/

namespace CampusRules

/-- What a collaborator gives back. -/
inductive Reply where
  | done
  | result (value : Json)
  | written (text : String)
  deriving DecidableEq

/-- The collaborators of an engine. Nobody may be there to assist with texts. -/
structure Collaborators (σ : Type) where
  assisted : Bool
  deliver : Handoff → Engine σ → Except Failure Reply × Engine σ

namespace Engine

variable {σ : Type} (collaborators : Collaborators σ)

/-- What the engine itself logs about the reply to an action. -/
def acknowledge (action : Action) (reply : Reply) (engine : Engine σ) : Engine σ :=
  match reply with
  | .written text =>
    let operation := (Parameters.literal? action.parameters "operation").getD ""
    engine.record (LogEntry.written operation text)
  | _ => engine

/-- Carries out one action. An action for an assistant is passed over if nobody
assists. -/
def perform (action : Action) (context : Json) (engine : Engine σ) :
    Except Failure Unit × Engine σ :=
  if action.kind = .aiAction ∧ collaborators.assisted = false then (.ok (), engine)
  else match action.prepare context with
    | .error unfit => (.error unfit.failure, engine)
    | .ok handoff =>
      match collaborators.deliver handoff engine with
      | (.error failure, after) => (.error failure, after)
      | (.ok reply, after) => (.ok (), after.acknowledge action reply)

/-- Carries out the actions of a rule from a position on, up to the first that
fails. -/
def performFrom (id : String) (context : Json) :
    (index : Nat) → List Action → Engine σ → Except Failure Unit × Engine σ
  | _, [], engine => (.ok (), engine)
  | index, action :: rest, engine =>
    let started := engine.announceAction (.started id index action.kind)
    match perform collaborators action context started with
    | (.ok (), after) =>
      performFrom id context (index + 1) rest (after.announceAction (.completed id index))
    | (.error failure, after) =>
      (.error failure, after.announceAction (.failed id index failure.message))

/-- Carries out the actions of a rule. -/
def performAll (id : String) (actions : List Action) (context : Json) (engine : Engine σ) :
    Except Failure Unit × Engine σ :=
  performFrom collaborators id context 0 actions engine

/-- Carries out a version of a rule that was looked up and is active. -/
def carryOut (rule : Rule) (context : Json) (time : Instant) (reason : String)
    (engine : Engine σ) : Bool × Engine σ :=
  let triggered := engine.announce (.triggered rule.id reason)
  if !Conditions.hold rule.conditions context then
    (false, triggered.announce (.skipped rule.id))
  else match performAll collaborators rule.id rule.actions context triggered with
    | (.error failure, after) => (false, after.announce (.failed rule.id failure.message))
    | (.ok (), after) =>
      let (count, credited) := after.credit rule.id time
      (true, credited.announce (.executed rule.id count))

/-- Carries out the rule with an identifier, if there is one and it is active. -/
def attempt (id : String) (context : Json) (time : Instant) (reason : String)
    (engine : Engine σ) : Bool × Engine σ :=
  match (engine.find? id).filter (·.isActive) with
  | none => (false, engine)
  | some rule => carryOut collaborators rule context time reason engine

/-- Carries out a rule by hand. -/
def execute (id : String) (context : Json) (engine : Engine σ) : Bool × Engine σ :=
  let (reading, looked) := engine.look
  attempt collaborators id context reading.instant "manual" looked

/-- Carries out rules one after the other, each at the time the clock then shows,
and collects those that ran. -/
def triggerEach (context : Json) (reason : String) :
    List String → Engine σ → List String × Engine σ
  | [], engine => ([], engine)
  | id :: rest, engine =>
    let (reading, looked) := engine.look
    let (ran, after) := attempt collaborators id context reading.instant reason looked
    let (others, last) := triggerEach context reason rest after
    (if ran then id :: others else others, last)

/-- The active rules that listen for an event. -/
def listeners (event : String) (engine : Engine σ) : List String :=
  (engine.rules.filter fun rule => rule.isActive && rule.listensFor event).map Rule.id

/-- Carries out the rules that listen for an event, in registry order; gives the
identifiers of those that ran. -/
def trigger (event : String) (context : Json) (engine : Engine σ) : List String × Engine σ :=
  triggerEach collaborators context ("event:" ++ event) (engine.listeners event) engine

/-- The active rules that their schedules let run now. -/
def due (now : Reading) (engine : Engine σ) : List String :=
  (engine.rules.filter fun rule => rule.isActive && rule.isScheduled && rule.isDue now).map
    Rule.id

/-- Carries out rules one after the other, all at the same time, and collects those
that ran. -/
def runEach (context : Json) (time : Instant) : List String → Engine σ → List String × Engine σ
  | [], engine => ([], engine)
  | id :: rest, engine =>
    let (ran, after) := attempt collaborators id context time "schedule" engine
    let (others, last) := runEach context time rest after
    (if ran then id :: others else others, last)

/-- What rules on a schedule get to see: the time. -/
def scheduleContext (time : Instant) : Json :=
  .object [("now", .string (Timestamp.writeToMillisecond time))]

/-- Carries out the rules that are due at a time, in registry order; gives the
identifiers of those that ran. -/
def runSchedule (now : Reading) (engine : Engine σ) : List String × Engine σ :=
  runEach collaborators (scheduleContext now.instant) now.instant (engine.due now) engine

/-- Carries out the rules that are due by the clock. -/
def runScheduleNow (engine : Engine σ) : List String × Engine σ :=
  let (reading, looked) := engine.look
  runSchedule collaborators reading looked

end Engine
end CampusRules
