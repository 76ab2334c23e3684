import CampusRules.Engine.Basic
import CampusRules.Rule.Validity

/-!
# Registering, changing and removing rules

Every operation first makes the list of rules that would follow, commits it, and
only then announces what happened. When it is refused, or when the commit fails,
neither the registry nor its stored document changes and nothing is announced.
-/

namespace CampusRules.Engine

variable {σ : Type}

/-- Announces an event if a commit succeeded, and gives its answer. -/
def concluded {α : Type} (answer : α) (event : Event) :
    Except Failure Unit × Engine σ → Except Failure α × Engine σ
  | (.ok (), committed) => (.ok answer, committed.announce event)
  | (.error failure, tried) => (.error failure, tried)

/-- The rule that a request asks for, at the time the clock shows. An identifier is
drawn only where the request has none. -/
def make (new : NewRule) (engine : Engine σ) : Rule × Engine σ :=
  let (reading, looked) := engine.look
  let rule := Rule.ofNew new looked.supply.fresh reading.instant
  let supply := if new.isNamed then looked.supply else looked.supply.afterDraw
  (rule, { looked with supply })

/-- Adds a rule that is made already; gives its identifier. -/
def insert (rule : Rule) (engine : Engine σ) : Except Failure String × Engine σ :=
  match rule.flaw? with
  | some flaw => (.error flaw.failure, engine)
  | none =>
    if (engine.find? rule.id).isSome then (.error (.duplicateRule rule.id), engine)
    else concluded rule.id (.created rule.id) (engine.commit (engine.rules ++ [rule]))

/-- Registers a rule at the end of the registry; gives its identifier. -/
def add (new : NewRule) (engine : Engine σ) : Except Failure String × Engine σ :=
  let (rule, ready) := engine.make new
  ready.insert rule

/-- Removes a rule; tells whether there was one. -/
def remove (id : String) (engine : Engine σ) : Except Failure Bool × Engine σ :=
  match engine.position? id with
  | none => (.ok false, engine)
  | some index => concluded true (.removed id) (engine.commit (engine.rules.eraseIdx index))

/-- Merges a change into a rule; tells whether there was one. -/
def update (id : String) (change : RuleChange) (engine : Engine σ) :
    Except Failure Bool × Engine σ :=
  match engine.position? id with
  | none => (.ok false, engine)
  | some index =>
    let next := engine.rules.modify index (·.merge change)
    match next[index]?.bind Rule.flaw? with
    | some flaw => (.error flaw.failure, engine)
    | none => concluded true (.updated id) (engine.commit next)

end CampusRules.Engine
