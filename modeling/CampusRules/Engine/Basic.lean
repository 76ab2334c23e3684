import CampusRules.Action.LogEntry
import CampusRules.Engine.Event
import CampusRules.Failure
import CampusRules.Storage.Document

/-!
# The state of an engine

An engine holds its rules in the order of their registration, on a disk that it
may store them on, with what the world supplies: times and identifiers. It keeps
what it has sent and logged, the latest last. `outside` is the state of its
collaborators, which the engine itself never touches.

The operations here are the sections that an operation on rules is made of. Each
is one step that nothing else comes between: saving, committing a new list of
rules, crediting an execution, and announcing an event.
-/

namespace CampusRules

/-- What the world supplies: what the clock shows at each look, and what each
fresh identifier ends with. -/
structure Supply where
  clock : Nat → Reading
  identifier : Nat → String
  looks : Nat := 0
  drawn : Nat := 0

/-- An engine, whose collaborators have a state of type `σ`. -/
structure Engine (σ : Type) where
  rules : List Rule := []
  storage : Option Location := none
  disk : Disk := {}
  supply : Supply
  events : List Event := []
  actionEvents : List ActionEvent := []
  log : List LogEntry := []
  outside : σ

namespace Supply

/-- What the clock shows now. -/
def now (supply : Supply) : Reading := supply.clock supply.looks

/-- The supply after a look at the clock. -/
def afterLook (supply : Supply) : Supply := { supply with looks := supply.looks + 1 }

/-- The next fresh identifier. -/
def fresh (supply : Supply) : String := Rule.idPrefix ++ supply.identifier supply.drawn

/-- The supply after an identifier is drawn. -/
def afterDraw (supply : Supply) : Supply := { supply with drawn := supply.drawn + 1 }

end Supply

namespace Engine

variable {σ : Type}

/-- The rule with an identifier. -/
def find? (engine : Engine σ) (id : String) : Option Rule :=
  engine.rules.find? (·.id == id)

/-- The position of the rule with an identifier. -/
def position? (engine : Engine σ) (id : String) : Option Nat :=
  engine.rules.findIdx? (·.id == id)

/-- The rules that may be carried out. -/
def activeRules (engine : Engine σ) : List Rule := engine.rules.filter (·.isActive)

/-- A look at the clock. -/
def look (engine : Engine σ) : Reading × Engine σ :=
  (engine.supply.now, { engine with supply := engine.supply.afterLook })

/-- Sends an event. -/
def announce (event : Event) (engine : Engine σ) : Engine σ :=
  { engine with events := engine.events ++ [event] }

/-- Sends an event about an action. -/
def announceAction (event : ActionEvent) (engine : Engine σ) : Engine σ :=
  { engine with actionEvents := engine.actionEvents ++ [event] }

/-- Logs an entry. -/
def record (entry : LogEntry) (engine : Engine σ) : Engine σ :=
  { engine with log := engine.log ++ [entry] }

/-- Saves a list of rules, if the engine stores its rules at all. -/
def save (rules : List Rule) (engine : Engine σ) : Except Failure Unit × Engine σ :=
  match engine.storage with
  | none => (.ok (), engine)
  | some location =>
    let (outcome, disk) := Document.save location rules engine.disk
    (outcome, { engine with disk })

/-- Saves a list of rules and then makes it the registry. If saving fails, the
registry stays as it was. -/
def commit (rules : List Rule) (engine : Engine σ) : Except Failure Unit × Engine σ :=
  match engine.save rules with
  | (.ok (), saved) => (.ok (), { saved with rules })
  | (.error failure, tried) => (.error failure, tried)

/-- Counts an execution of the rule registered under an identifier now, if there
is one, and gives the new count; nothing is saved yet. -/
def bump (id : String) (time : Instant) (engine : Engine σ) : Option UInt64 × Engine σ :=
  match engine.position? id with
  | none => (none, engine)
  | some index =>
    let rules := engine.rules.modify index (·.executed time)
    (rules[index]?.map Rule.executionCount, { engine with rules })

/-- Credits an execution: counts it and saves the registry. That saving may fail
changes nothing about the count. A rule that is gone gets no credit. -/
def credit (id : String) (time : Instant) (engine : Engine σ) : UInt64 × Engine σ :=
  match engine.bump id time with
  | (none, same) => (0, same)
  | (some count, bumped) => (count, (bumped.save bumped.rules).2)

end Engine
end CampusRules
