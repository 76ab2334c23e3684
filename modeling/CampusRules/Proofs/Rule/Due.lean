import CampusRules.Proofs.Rule.Schedule

/-!
# A missed schedule stays due

What a frequency waits for is not undone by waiting longer: on a clock with one offset neither days
nor months nor milliseconds run backwards. So a rule that is due stays due until it runs.

The frequencies are nested: where a week has passed or a month is over, a day is over as well.
-/

namespace CampusRules

namespace Frequency

variable {last : Instant} {now later : Reading}

/-- What has elapsed since a rule last ran has elapsed at every later reading of the clock. -/
theorem hasElapsed_of_later {frequency : Frequency} (offset : later.offset = now.offset)
    (plain : now.instant.isLeapSecond = false) (ran : last.NotAfter now.instant)
    (waited : now.instant.NotAfter later.instant)
    (elapsed : frequency.hasElapsed last now = true) :
    frequency.hasElapsed last later = true := by
  let seen : Reading := ⟨last, now.offset⟩
  have begun : seen.day ≤ now.day := Instant.dayAt_mono ran now.offset
  have ended : now.day ≤ later.day := by
    unfold Reading.day
    rw [offset]
    exact Instant.dayAt_mono waited now.offset
  cases frequency with
  | daily =>
    have another : now.day ≠ seen.day := by simpa [hasElapsed] using elapsed
    have behind : later.day ≠ seen.day := by omega
    simpa [hasElapsed, offset] using behind
  | weekly =>
    have passed : weekMilliseconds ≤ now.instant.milliseconds - last.milliseconds := by
      simpa [hasElapsed] using elapsed
    have further := Instant.milliseconds_mono waited plain
    have enough : weekMilliseconds ≤ later.instant.milliseconds - last.milliseconds := by omega
    simpa [hasElapsed] using enough
  | monthly =>
    have another : now.month ≠ seen.month := by simpa [hasElapsed] using elapsed
    have starting : seen.month ≤ now.month := Calendar.monthsAt_mono begun
    have ending : now.month ≤ later.month := Calendar.monthsAt_mono ended
    have behind : later.month ≠ seen.month := by omega
    simpa [hasElapsed, offset] using behind
  | other name => cases elapsed

/-- Where a week has passed, the day is another one. The milliseconds of a reading outside leap
seconds are less than a second, so no second of the week is missing. -/
theorem daily_of_weekly (plain : now.instant.isLeapSecond = false)
    (elapsed : weekly.hasElapsed last now = true) : daily.hasElapsed last now = true := by
  have short : now.instant.nanoseconds < 1000000000 := by simpa [Instant.isLeapSecond] using plain
  have passed : weekMilliseconds ≤ now.instant.milliseconds - last.milliseconds := by
    simpa [hasElapsed] using elapsed
  have another : now.day ≠ last.dayAt now.offset := by
    unfold weekMilliseconds Instant.milliseconds at passed
    unfold Reading.day Instant.dayAt
    omega
  simpa [hasElapsed, Reading.day] using another

/-- Where the month is another one, so is the day. -/
theorem daily_of_monthly (elapsed : monthly.hasElapsed last now = true) :
    daily.hasElapsed last now = true := by
  let seen : Reading := ⟨last, now.offset⟩
  have another : now.month ≠ seen.month := by simpa [hasElapsed] using elapsed
  have days : now.day ≠ seen.day := fun same => another (congrArg Calendar.monthsAt same)
  simpa [hasElapsed] using days

end Frequency

namespace Rule

/-- A rule is due if it is on a schedule and has never run, or the frequency of the schedule has
elapsed since. -/
theorem isDue_iff {rule : Rule} {now : Reading} :
    rule.isDue now = true ↔
      ∃ frequency time dayOfWeek dayOfMonth,
        rule.trigger = .schedule frequency time dayOfWeek dayOfMonth ∧
          ∀ last, rule.lastExecuted = some last → frequency.hasElapsed last now = true := by
  unfold isDue
  cases rule.trigger with
  | schedule frequency time dayOfWeek dayOfMonth => cases rule.lastExecuted <;> simp
  | event name => simp
  | condition field operator value => simp

/-- A rule that is put on a schedule of its own frequency. -/
def every (rule : Rule) (frequency : Frequency) : Rule :=
  { rule with trigger := .schedule frequency "00:00" none none }

/-- Such a rule is due if it has never run, or the frequency has elapsed since. -/
theorem isDue_every_iff {rule : Rule} {frequency : Frequency} {now : Reading} :
    (rule.every frequency).isDue now = true ↔
      ∀ last, rule.lastExecuted = some last → frequency.hasElapsed last now = true := by
  rw [isDue_iff]
  constructor
  · rintro ⟨_, _, _, _, ⟨⟩, elapsed⟩
    exact elapsed
  · exact fun elapsed => ⟨frequency, _, _, _, rfl, elapsed⟩

/-- A rule that is due, by a clock that is not behind its last execution, is due at every later
reading of that clock. And if a rule would be due every week or every month, it would be due every
day. -/
theorem due_until_run_and_nested (rule : Rule) (now : Reading)
    (plain : now.instant.isLeapSecond = false)
    (ran : ∀ last, rule.lastExecuted = some last → last.NotAfter now.instant) :
    (rule.isDue now = true → ∀ later : Reading, later.offset = now.offset →
      now.instant.NotAfter later.instant → rule.isDue later = true) ∧
    ((rule.every .weekly).isDue now = true ∨ (rule.every .monthly).isDue now = true →
      (rule.every .daily).isDue now = true) := by
  constructor
  · intro due later offset waited
    obtain ⟨frequency, time, dayOfWeek, dayOfMonth, trigger, elapsed⟩ := isDue_iff.mp due
    refine isDue_iff.mpr ⟨frequency, time, dayOfWeek, dayOfMonth, trigger, ?_⟩
    intro last stamp
    exact Frequency.hasElapsed_of_later offset plain (ran last stamp) waited (elapsed last stamp)
  · simp only [isDue_every_iff]
    rintro (weekly | monthly) last stamp
    · exact Frequency.daily_of_weekly plain (weekly last stamp)
    · exact Frequency.daily_of_monthly (monthly last stamp)

end Rule

/-- A rule that settles accounts every month, and did so on the last evening of a leap February. -/
def settlement : Rule where
  id := "settlement"
  name := "Settlement"
  description := ""
  trigger := .schedule .monthly "08:00" none none
  conditions := []
  actions := []
  isActive := true
  createdAt := ⟨0, 0⟩
  lastExecuted := some ⟨1709245800, 999999999⟩
  executionCount := 1

/-- By a clock one hour east, March has begun half an hour later. The accounts are due then, also if
they were settled every day; and if nobody settles them, they are still due in the middle of
March. -/
theorem settlement_stays_due :
    let midnight : Reading := ⟨⟨1709247600, 0⟩, 3600⟩
    let later : Reading := ⟨⟨1710504000, 0⟩, 3600⟩
    midnight.instant.isLeapSecond = false ∧
    (∀ last, settlement.lastExecuted = some last → last.NotAfter midnight.instant) ∧
    Calendar.dateOf midnight.day = ⟨2024, 3, 1⟩ ∧ settlement.isDue midnight = true ∧
    midnight.instant.NotAfter later.instant ∧ settlement.isDue later = true ∧
    (settlement.every .weekly).isDue midnight = false ∧
    (settlement.every .daily).isDue midnight = true := by
  intro midnight later
  have plain : midnight.instant.isLeapSecond = false := by decide
  have ran : ∀ last, settlement.lastExecuted = some last → last.NotAfter midnight.instant := by
    rintro _ ⟨⟩
    exact .inl (by decide)
  have due : settlement.isDue midnight = true := by decide +kernel
  have waited : midnight.instant.NotAfter later.instant := .inl (by decide)
  obtain ⟨stays, nested⟩ := Rule.due_until_run_and_nested settlement midnight plain ran
  exact ⟨plain, ran, by decide +kernel, due, waited, stays due later rfl waited, by decide +kernel,
    nested (.inr (by decide +kernel))⟩

end CampusRules
