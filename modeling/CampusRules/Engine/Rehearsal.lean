import CampusRules.Engine.Command

/-!
# Logging and rehearsing collaborators

The collaborators that come with the engine log what they are handed and always
succeed. A *rehearsal* is for trying rules out: its collaborators keep a record of
what they were handed, reply or fail as a script says, and may call back into the
engine while a calculation is running.

Each call back is made once, so the number of those that are left bounds how deeply
executions can nest.
-/

namespace CampusRules

/-- Logs a message. -/
def Handoff.recordIn {σ : Type} (handoff : Handoff) (engine : Engine σ) :
    Except Failure Reply × Engine σ :=
  (.ok .done, engine.record handoff.logEntry)

/-- The collaborators that come with the engine: they log. -/
def Collaborators.logging {σ : Type} : Collaborators σ := ⟨false, Handoff.recordIn⟩

namespace Rehearsal

/-- The collaborators: updates and creations of records go to the same one. -/
inductive Role where
  | email
  | notifications
  | records
  | calculator
  | reports
  | assistant
  deriving DecidableEq

/-- The role that a kind of action turns to. -/
def Role.of : ActionKind → Role
  | .email => .email
  | .notification => .notifications
  | .updateRecord | .createRecord => .records
  | .calculate => .calculator
  | .generateReport => .reports
  | .aiAction => .assistant

/-- How a recording collaborator behaves: with what reason it fails, if at all, from
which call on, and what it replies otherwise. -/
structure Part where
  fails : Option String := none
  after : Nat := 0
  reply : Json := .null
  deriving DecidableEq

/-- What a collaborator does with what it is handed. -/
inductive Manner where
  | logs
  | records (part : Part)
  deriving DecidableEq

/-- The manners of all collaborators. Without an assistant none is there. -/
structure Script where
  email : Manner := .records {}
  notifications : Manner := .records {}
  records : Manner := .records {}
  calculator : Manner := .records {}
  reports : Manner := .records {}
  assistant : Option Part := none
  deriving DecidableEq

/-- The script of collaborators that all log. -/
def Script.allLogging : Script := ⟨.logs, .logs, .logs, .logs, .logs, none⟩

/-- The manner of the collaborator with a role. -/
def Script.manner (script : Script) : Role → Manner
  | .email => script.email
  | .notifications => script.notifications
  | .records => script.records
  | .calculator => script.calculator
  | .reports => script.reports
  | .assistant => .records (script.assistant.getD {})

/-- Something that a rehearsal has put on record. -/
inductive Entry where
  | handed (handoff : Handoff)
  | calledBack (outcome : Except Failure Answer)

/-- A call back into the engine, on the first calculation with an operation. A
request that could not be understood is refused with its failure. -/
structure CallBack where
  operation : String
  request : Except Failure Command

/-- The state of a rehearsal: how often each collaborator was called, what was
recorded, and the calls back that are left. -/
structure State where
  script : Script := {}
  calls : Role → Nat := fun _ => 0
  entries : List Entry := []
  callBacks : List CallBack := []

/-- What an assistant writes that has no text to reply with. -/
def congratulations : String := "Congratulations!"

/-- The reply of a recording collaborator. -/
def Part.replyTo (part : Part) : ActionKind → Reply
  | .calculate => .result part.reply
  | .aiAction => .written (part.reply.string?.getD congratulations)
  | _ => .done

/-- Whether a collaborator fails at its call with a number. -/
def Part.failure? (part : Part) (call : Nat) : Option Failure :=
  if part.after ≤ call then part.fails.map .handlerFailed else none

/-- The state after one more call of a role. -/
def State.called (state : State) (role : Role) : State :=
  { state with calls := fun other => state.calls other + if other = role then 1 else 0 }

/-- The state with one more entry. -/
def State.note (state : State) (entry : Entry) : State :=
  { state with entries := state.entries ++ [entry] }

/-- The call back that a message brings about, and the state without it. -/
def State.takeCallBack (state : State) : Handoff → Option CallBack × State
  | .calculate calculation _ =>
    match state.callBacks.find? (·.operation == calculation.operation) with
    | some callBack =>
      (some callBack, { state with
        callBacks := state.callBacks.filter (·.operation != calculation.operation) })
    | none => (none, state)
  | _ => (none, state)

/-- Hands a message to a collaborator of a rehearsal. Calls back nest at most to the
given depth. -/
def deliver (assisted : Bool) :
    (depth : Nat) → Handoff → Engine State → Except Failure Reply × Engine State
  | depth, handoff, engine =>
    let role := Role.of handoff.kind
    match engine.outside.script.manner role with
    | .logs => handoff.recordIn engine
    | .records part =>
      let call := engine.outside.calls role
      let outside := (engine.outside.called role).note (.handed handoff)
      match part.failure? call with
      | some failure => (.error failure, { engine with outside })
      | none =>
        let reply := part.replyTo handoff.kind
        match depth, outside.takeCallBack handoff with
        | below + 1, (some callBack, left) =>
          let during := { engine with outside := left }
          let (outcome, after) := match callBack.request with
            | .ok command => during.run ⟨assisted, deliver assisted below⟩ command
            | .error failure => (.error failure, during)
          (.ok reply, { after with outside := after.outside.note (.calledBack outcome) })
        | _, _ => (.ok reply, { engine with outside })
termination_by structural depth => depth

/-- The collaborators of a rehearsal in a given state. -/
def collaborators (state : State) : Collaborators State :=
  let assisted := state.script.assistant.isSome
  ⟨assisted, deliver assisted state.callBacks.length⟩

end Rehearsal
end CampusRules
