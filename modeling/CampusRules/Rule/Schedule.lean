import CampusRules.Rule.Basic

/-!
# When a schedule lets a rule run

A rule on a schedule that has never run is due at once. Otherwise its frequency
decides, from the last time it ran and the time that a clock shows now: daily
rules run on another date than last time, monthly rules in another month, both as
that clock counts them, and weekly rules when a full week has passed. A frequency
that is not known lets no rule run again.

The time of day and the days that a schedule names have no part in this.
-/

namespace CampusRules

/-- The milliseconds of a week. -/
def weekMilliseconds : Int := 7 * 24 * 3600 * 1000

/-- Whether enough time has passed since a rule last ran. -/
def Frequency.hasElapsed (frequency : Frequency) (last : Instant) (now : Reading) : Bool :=
  let lastSeen : Reading := ⟨last, now.offset⟩
  match frequency with
  | daily => now.day != lastSeen.day
  | weekly => weekMilliseconds ≤ now.instant.milliseconds - last.milliseconds
  | monthly => now.month != lastSeen.month
  | other _ => false

/-- Whether the schedule of a rule lets it run. A rule without a schedule is never
due. -/
def Rule.isDue (rule : Rule) (now : Reading) : Bool :=
  match rule.trigger with
  | .schedule frequency _ _ _ =>
    match rule.lastExecuted with
    | none => true
    | some last => frequency.hasElapsed last now
  | _ => false

end CampusRules
