import CampusRules.Proofs.Time.Calendar
import CampusRules.Rule.Schedule

/-!
# What a frequency keeps apart

A frequency looks only at the last time that a rule ran. As the readings of a clock come
in order, whatever lies before the last time is even further away: days, months and
milliseconds never run backwards on a clock with one offset.

Milliseconds do run backwards at the end of a leap second, so the first of two readings is
taken to lie in none.
-/

namespace CampusRules

namespace Instant

/-- An instant comes no later than another. -/
def NotAfter (first second : Instant) : Prop :=
  first.seconds < second.seconds ∨
    first.seconds = second.seconds ∧ first.nanoseconds ≤ second.nanoseconds

/-- Every instant comes no later than itself. -/
theorem NotAfter.refl (instant : Instant) : NotAfter instant instant :=
  .inr ⟨rfl, Nat.le_refl _⟩

/-- On a clock with one offset, later instants have no earlier days. -/
theorem dayAt_mono {first second : Instant} (ordered : NotAfter first second) (offset : Int) :
    first.dayAt offset ≤ second.dayAt offset := by
  unfold NotAfter at ordered
  unfold dayAt
  omega

/-- Later instants have no earlier milliseconds. -/
theorem milliseconds_mono {first second : Instant} (ordered : NotAfter first second)
    (plain : first.isLeapSecond = false) : first.milliseconds ≤ second.milliseconds := by
  have short : first.nanoseconds < 1000000000 := by simpa [isLeapSecond] using plain
  unfold NotAfter at ordered
  unfold milliseconds
  omega

end Instant

/-- Two readings are as far apart as a frequency demands: they fall on different dates, in
different months of the calendar, or a week lies between them. A frequency that is not known
keeps everything apart. -/
def Frequency.Apart (frequency : Frequency) (first second : Reading) : Prop :=
  match frequency with
  | daily => Calendar.dateOf second.day ≠ Calendar.dateOf first.day
  | weekly => weekMilliseconds ≤ second.instant.milliseconds - first.instant.milliseconds
  | monthly => ¬((Calendar.dateOf second.day).year = (Calendar.dateOf first.day).year ∧
      (Calendar.dateOf second.day).month = (Calendar.dateOf first.day).month)
  | other _ => False

/-- When enough time has passed since the last time, enough has passed since any time before
that. -/
theorem Frequency.apart_of_hasElapsed {frequency : Frequency} {first now : Reading}
    {last : Instant} (offset : first.offset = now.offset)
    (plain : first.instant.isLeapSecond = false)
    (earlier : first.instant.NotAfter last) (later : last.NotAfter now.instant)
    (elapsed : frequency.hasElapsed last now = true) : frequency.Apart first now := by
  let seen : Reading := ⟨last, now.offset⟩
  have begun : first.day ≤ seen.day := by
    unfold Reading.day
    rw [offset]
    exact Instant.dayAt_mono earlier now.offset
  have ended : seen.day ≤ now.day := Instant.dayAt_mono later now.offset
  cases frequency with
  | daily =>
    have another : now.day ≠ seen.day := by simpa [hasElapsed] using elapsed
    intro same
    have day := Calendar.dateOf_injective same
    omega
  | weekly =>
    have passed : weekMilliseconds ≤ now.instant.milliseconds - last.milliseconds := by
      simpa [hasElapsed] using elapsed
    have before := Instant.milliseconds_mono earlier plain
    change weekMilliseconds ≤ now.instant.milliseconds - first.instant.milliseconds
    omega
  | monthly =>
    have another : now.month ≠ seen.month := by simpa [hasElapsed] using elapsed
    have starting := Calendar.monthsAt_mono begun
    have ending := Calendar.monthsAt_mono ended
    intro same
    have month := (Calendar.monthsAt_eq_iff now.day first.day).mpr same
    unfold Reading.month at another
    omega
  | other name => cases elapsed

/-- A rule that is due and has run before is on a schedule whose frequency has elapsed. -/
theorem Rule.hasElapsed_of_isDue {rule : Rule} {now : Reading} {last : Instant}
    (due : rule.isDue now = true) (stamp : rule.lastExecuted = some last) :
    ∃ frequency time dayOfWeek dayOfMonth,
      rule.trigger = .schedule frequency time dayOfWeek dayOfMonth ∧
        frequency.hasElapsed last now = true := by
  cases trigger : rule.trigger with
  | schedule frequency time dayOfWeek dayOfMonth =>
    refine ⟨frequency, time, dayOfWeek, dayOfMonth, rfl, ?_⟩
    simpa [isDue, trigger, stamp] using due
  | event name => simp [isDue, trigger] at due
  | condition field operator value => simp [isDue, trigger] at due

end CampusRules
