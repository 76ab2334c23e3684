import CampusRules.Engine.Execution

/-!
# The ticker

A ticker runs the schedule of an engine at regular intervals, by the clock. The
tick at the very start is passed over, so in a time of so many whole periods the
schedule is run that many times.
-/

namespace CampusRules.Ticker

variable {σ : Type}

/-- Lets a ticker run for a number of periods. -/
def run (collaborators : Collaborators σ) : (periods : Nat) → Engine σ → Engine σ
  | 0, engine => engine
  | periods + 1, engine => run collaborators periods (engine.runScheduleNow collaborators).2

end CampusRules.Ticker
