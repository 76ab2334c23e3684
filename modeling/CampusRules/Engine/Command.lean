import CampusRules.Engine.Execution
import CampusRules.Engine.Registry

/-!
# Commands

Everything that can be asked of an open engine, as data, with the answers that
come back. `Engine.run` carries out one command, `Engine.runAll` several in a row.
-/

namespace CampusRules

/-- Something asked of an engine. Without a time, a schedule runs by the clock. -/
inductive Command where
  | add (new : NewRule)
  | remove (id : String)
  | update (id : String) (change : RuleChange)
  | get (id : String)
  | rules
  | activeRules
  | execute (id : String) (context : Json)
  | trigger (event : String) (context : Json)
  | schedule (now : Option Reading)
  deriving DecidableEq

/-- What an engine answers. -/
inductive Answer where
  | added (id : String)
  | done (changed : Bool)
  | rule (found : Option Rule)
  | rules (listed : List Rule)
  | ran (ids : List String)
  deriving DecidableEq

namespace Engine

variable {σ : Type} (collaborators : Collaborators σ)

/-- The outcome of an operation with its answer wrapped. -/
def answered {α : Type} (wrap : α → Answer) (outcome : Except Failure α × Engine σ) :
    Except Failure Answer × Engine σ :=
  (outcome.1.map wrap, outcome.2)

/-- Carries out a command. -/
def run (command : Command) (engine : Engine σ) : Except Failure Answer × Engine σ :=
  match command with
  | .add new => answered .added (engine.add new)
  | .remove id => answered .done (engine.remove id)
  | .update id change => answered .done (engine.update id change)
  | .get id => (.ok (.rule (engine.find? id)), engine)
  | .rules => (.ok (.rules engine.rules), engine)
  | .activeRules => (.ok (.rules engine.activeRules), engine)
  | .execute id context =>
    let (ran, after) := engine.execute collaborators id context
    (.ok (.done ran), after)
  | .trigger event context =>
    let (ids, after) := engine.trigger collaborators event context
    (.ok (.ran ids), after)
  | .schedule (some now) =>
    let (ids, after) := engine.runSchedule collaborators now
    (.ok (.ran ids), after)
  | .schedule none =>
    let (ids, after) := engine.runScheduleNow collaborators
    (.ok (.ran ids), after)

/-- Carries out commands one after the other; gives their outcomes. -/
def runAll : List Command → Engine σ → List (Except Failure Answer) × Engine σ
  | [], engine => ([], engine)
  | command :: rest, engine =>
    let (outcome, after) := engine.run collaborators command
    let (others, last) := runAll rest after
    (outcome :: others, last)

end Engine

/-- An answer as JSON. -/
def Answer.toJson : Answer → Json
  | added id => .string id
  | done changed => .bool changed
  | rule found => (found.map Rule.toJson).getD .null
  | rules listed => Rule.listToJson listed
  | ran ids => .array (ids.map .string)

end CampusRules
