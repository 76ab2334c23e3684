import CampusRules.Proofs.Engine.Evolution
import CampusRules.Proofs.Engine.Pass
import CampusRules.Proofs.Rule.Schedule

/-!
# Schedules over a whole run

A run of passes over the schedule, with changes of the registry in between, never runs a
rule again before its frequency at that time allows it: not only since the last time it ran,
but since every pass that ran it. The record of a rule that stays registered is what carries
this through the run, because nothing but a later pass replaces the time in it.
-/

namespace CampusRules

/-- The reading that a pass over the schedule is given. -/
def Command.reading? : Command → Option Reading
  | .schedule now => now
  | _ => none

/-- Whether a command is a pass at a given reading, or leaves the collaborators alone. -/
def Command.isOrderly : Command → Bool
  | .schedule now => now.isSome
  | command => !command.carriesOut

/-- A command of an orderly run that carries out rules is a pass at a reading. -/
theorem Command.schedule_of_isOrderly {command : Command} (orderly : command.isOrderly = true)
    (carries : command.carriesOut = true) : ∃ now, command = .schedule (some now) := by
  cases command with
  | schedule now =>
    obtain ⟨reading, rfl⟩ := Option.isSome_iff_exists.mp orderly
    exact ⟨reading, rfl⟩
  | execute id context => cases orderly
  | trigger event context => cases orderly
  | _ => cases carries

/-- A command that carries out no rule has no reading. -/
theorem Command.reading?_of_quiet {command : Command} (quiet : command.carriesOut = false) :
    command.reading? = none := by
  cases command <;> first | rfl | cases quiet

/-- A run of passes at readings that never go back, shown by one clock and inside no leap
second, with anything in between that leaves the collaborators alone. -/
structure Orderly (offset : Int) (commands : List Command) : Prop where
  orderly : ∀ command ∈ commands, command.isOrderly = true
  inOrder : (commands.filterMap Command.reading?).Pairwise fun earlier later =>
    earlier.instant.NotAfter later.instant
  offset : ∀ command ∈ commands, ∀ now, command.reading? = some now → now.offset = offset
  plain : ∀ command ∈ commands, ∀ now, command.reading? = some now →
    now.instant.isLeapSecond = false

/-- In an orderly run, whatever a pass and those up to another one leave as the last time of a
rule lies between the two. -/
theorem Orderly.between {offset : Int} {early middle late : List Command} {first second : Reading}
    (run : Orderly offset
      (early ++ .schedule (some first) :: middle ++ .schedule (some second) :: late)) :
    ∀ last ∈ first.instant :: (middle.filterMap Command.reading?).map Reading.instant,
      first.instant.NotAfter last ∧ last.NotAfter second.instant := by
  have inOrder := run.inOrder
  simp only [List.filterMap_append, List.filterMap_cons, Command.reading?, List.pairwise_append,
    List.pairwise_cons, List.mem_append, List.mem_cons] at inOrder
  obtain ⟨⟨_, ⟨fromFirst, _⟩, _⟩, _, upTo⟩ := inOrder
  intro last among
  rcases List.mem_cons.mp among with rfl | among
  · exact ⟨.refl _, upTo first (.inr (.inl rfl)) second (.inl rfl)⟩
  · obtain ⟨now, member, rfl⟩ := List.mem_map.mp among
    exact ⟨fromFirst now member, upTo now (.inr (.inr member)) second (.inl rfl)⟩

namespace Registry

/-- What an operation that carries out no rule makes of a registry with distinct
identifiers. -/
inductive Edit (rules : List Rule) : List Rule → Prop where
  | none : Edit rules rules
  | add (rule : Rule) (new : ∀ other ∈ rules, other.id ≠ rule.id) : Edit rules (rules ++ [rule])
  | remove (id : String) : Edit rules (rules.filter (·.id != id))
  | update (id : String) (change : RuleChange) : Edit rules (adjust id (·.merge change) rules)

/-- An edit leaves identifiers distinct. -/
theorem Edit.distinct {before after : List Rule} (edit : Edit before after)
    (distinct : Distinct before) : Distinct after := by
  cases edit with
  | none => exact distinct
  | add rule new => exact distinct.append new
  | remove id => exact distinct.filter _
  | update id change => exact distinct.adjust id fun _ => rfl

/-- A rule with an identifier is registered, and it last ran at one of some times. -/
def Marked (id : String) (times : List Instant) (rules : List Rule) : Prop :=
  ∃ rule ∈ rules, rule.id = id ∧ ∃ last ∈ times, rule.lastExecuted = some last

/-- An edit that leaves a rule registered leaves its mark in place. -/
theorem Edit.marked {id : String} {times : List Instant} {before after : List Rule}
    (edit : Edit before after) (stays : ∃ rule ∈ after, rule.id = id)
    (marked : Marked id times before) : Marked id times after := by
  obtain ⟨rule, member, named, last, among, ran⟩ := marked
  cases edit with
  | none => exact ⟨rule, member, named, last, among, ran⟩
  | add other _ => exact ⟨rule, List.mem_append_left _ member, named, last, among, ran⟩
  | remove other =>
    obtain ⟨remaining, left, same⟩ := stays
    have different : id ≠ other := by
      intro equal
      have kept := (List.mem_filter.mp left).2
      simp [same, equal] at kept
    refine ⟨rule, List.mem_filter.mpr ⟨member, ?_⟩, named, last, among, ran⟩
    simpa [named] using different
  | update other change =>
    refine ⟨_, List.mem_map.mpr ⟨rule, member, rfl⟩, ?_, last, among, ?_⟩
    · split <;> exact named
    · split <;> exact ran

/-- A pass replaces a mark by the time of the pass, or leaves it in place. -/
theorem Marked.credited {id : String} {times : List Instant} {rules : List Rule}
    (marked : Marked id times rules) (ids : List String) (time : Instant) :
    Marked id (times ++ [time]) (Registry.credited ids time rules) := by
  obtain ⟨rule, member, named, last, among, ran⟩ := marked
  by_cases runs : rule.id ∈ ids
  · refine ⟨rule.executed time, List.mem_map.mpr ⟨rule, member, if_pos runs⟩, named, time, ?_, rfl⟩
    exact List.mem_append_right _ (List.mem_singleton_self time)
  · refine ⟨rule, List.mem_map.mpr ⟨rule, member, if_neg runs⟩, named, last, ?_, ran⟩
    exact List.mem_append_left _ among

end Registry

namespace Engine

open Registry

section

variable {σ : Type} {collaborators : Collaborators σ}

/-- A command that carries out no rule edits the registry at most. -/
theorem edit_run {command : Command} (quiet : command.carriesOut = false) (engine : Engine σ)
    (distinct : Distinct engine.rules) :
    Edit engine.rules (engine.run collaborators command).2.rules := by
  cases command with
  | add new =>
    change Edit engine.rules (engine.add new).2.rules
    rcases add_outcome new engine with ⟨_, _, untouched⟩ | ⟨done, committed⟩
    · rw [untouched.rules]
      exact .none
    · rw [committed.rules]
      exact .add _ (insert_accepted done).2
  | remove id =>
    change Edit engine.rules (engine.remove id).2.rules
    rcases remove_outcome id engine with
      ⟨_, _, untouched⟩ | ⟨_, _, untouched⟩ | ⟨_, index, position, committed⟩
    · rw [untouched.rules]
      exact .none
    · rw [untouched.rules]
      exact .none
    · rw [committed.rules, eraseIdx_findIdx _ _ _ distinct position]
      exact .remove id
  | update id change =>
    change Edit engine.rules (engine.update id change).2.rules
    rcases update_outcome id change engine with
      ⟨_, _, untouched⟩ | ⟨_, _, untouched⟩ | ⟨_, index, rule, position, there, _, _, committed⟩
    · rw [untouched.rules]
      exact .none
    · rw [untouched.rules]
      exact .none
    · rw [committed.rules, set_eq_adjust distinct position there (·.merge change)]
      exact .update id change
  | get id => exact .none
  | rules => exact .none
  | activeRules => exact .none
  | execute id context => cases quiet
  | trigger event context => cases quiet
  | schedule now => cases quiet

variable (detached : collaborators.Detached)
include detached

/-- A pass at a reading counts executions at that time. -/
theorem run_schedule_rules (now : Reading) (engine : Engine σ) (distinct : Distinct engine.rules) :
    (engine.run collaborators (.schedule (some now))).2.rules =
      credited (engine.runSchedule collaborators now).1 now.instant engine.rules :=
  (runSchedule_passes detached now engine distinct).rules

/-- A command of an orderly run is a pass at a reading, or carries out no rule. -/
theorem distinct_run {command : Command} (orderly : command.isOrderly = true) (engine : Engine σ)
    (distinct : Distinct engine.rules) : Distinct (engine.run collaborators command).2.rules := by
  cases quiet : command.carriesOut with
  | false => exact (edit_run quiet engine distinct).distinct distinct
  | true =>
    obtain ⟨now, rfl⟩ := Command.schedule_of_isOrderly orderly quiet
    rw [run_schedule_rules detached now engine distinct]
    exact distinct.credited _ _

/-- Identifiers stay distinct through an orderly run. -/
theorem distinct_runAll {commands : List Command}
    (orderly : ∀ command ∈ commands, command.isOrderly = true) (engine : Engine σ)
    (distinct : Distinct engine.rules) :
    Distinct (engine.runAll collaborators commands).2.rules := by
  induction commands generalizing engine with
  | nil => exact distinct
  | cons command rest inductionHypothesis =>
    exact inductionHypothesis (fun other member => orderly other (List.mem_cons_of_mem _ member)) _
      (distinct_run detached (orderly command List.mem_cons_self) engine distinct)

/-- A command of an orderly run that leaves a rule registered leaves its mark in place, or
puts the time of a pass there. -/
theorem marked_run {id : String} {times : List Instant} {command : Command}
    (orderly : command.isOrderly = true) (engine : Engine σ) (distinct : Distinct engine.rules)
    (stays : ((engine.run collaborators command).2.find? id).isSome = true)
    (marked : Marked id times engine.rules) :
    Marked id (times ++ command.reading?.toList.map Reading.instant)
      (engine.run collaborators command).2.rules := by
  cases quiet : command.carriesOut with
  | false =>
    obtain ⟨rule, found⟩ := Option.isSome_iff_exists.mp stays
    have present : ∃ rule ∈ (engine.run collaborators command).2.rules, rule.id = id :=
      ⟨rule, List.mem_of_find?_eq_some found, by simpa using List.find?_some found⟩
    rw [Command.reading?_of_quiet quiet]
    simpa using (edit_run quiet engine distinct).marked present marked
  | true =>
    obtain ⟨now, rfl⟩ := Command.schedule_of_isOrderly orderly quiet
    rw [run_schedule_rules detached now engine distinct]
    exact marked.credited _ _

/-- A rule that stays registered through an orderly run last ran at one of the times that it
was marked with before, or in one of the passes of the run. -/
theorem marked_runAll {id : String} {times : List Instant} {commands : List Command}
    (orderly : ∀ command ∈ commands, command.isOrderly = true) (engine : Engine σ)
    (distinct : Distinct engine.rules)
    (stays : ∀ front, front <+: commands →
      ((engine.runAll collaborators front).2.find? id).isSome = true)
    (marked : Marked id times engine.rules) :
    Marked id (times ++ (commands.filterMap Command.reading?).map Reading.instant)
      (engine.runAll collaborators commands).2.rules := by
  induction commands generalizing engine times with
  | nil => simpa [runAll] using marked
  | cons command rest inductionHypothesis =>
    have first := orderly command List.mem_cons_self
    have here : ((engine.run collaborators command).2.find? id).isSome = true :=
      stays [command] ⟨rest, rfl⟩
    have next := inductionHypothesis
      (fun other member => orderly other (List.mem_cons_of_mem _ member)) _
      (distinct_run detached first engine distinct)
      (fun front leads => stays (command :: front) (List.cons_prefix_cons.mpr ⟨rfl, leads⟩))
      (marked_run detached first engine distinct here marked)
    have times : (command :: rest).filterMap Command.reading? =
        command.reading?.toList ++ rest.filterMap Command.reading? := by
      rw [List.filterMap_cons]
      cases command.reading? <;> rfl
    rw [times, List.map_append, ← List.append_assoc]
    exact next

/-- A rule that runs in a pass is one that is registered, and due. -/
theorem due_of_ran {id : String} {now : Reading} {engine : Engine σ}
    (distinct : Distinct engine.rules)
    (ran : id ∈ (engine.runSchedule collaborators now).1) :
    ∃ rule ∈ engine.rules, rule.id = id ∧ rule.isDue now = true := by
  have passes := runSchedule_passes detached now engine distinct
  obtain ⟨rule, waits, named⟩ := List.mem_map.mp (passes.inOrder.subset ran)
  obtain ⟨present, eligible⟩ := List.mem_filter.mp waits
  exact ⟨rule, present, named, (Bool.and_eq_true_iff.mp eligible).2⟩

/-- A pass marks the rules that it runs with its time. -/
theorem marked_of_ran {id : String} {now : Reading} {engine : Engine σ}
    (distinct : Distinct engine.rules)
    (ran : id ∈ (engine.runSchedule collaborators now).1) :
    Marked id [now.instant] (engine.runSchedule collaborators now).2.rules := by
  have counted : (engine.runSchedule collaborators now).2.rules =
      credited (engine.runSchedule collaborators now).1 now.instant engine.rules :=
    (runSchedule_passes detached now engine distinct).rules
  obtain ⟨rule, present, named, _⟩ := due_of_ran detached distinct ran
  rw [counted]
  refine ⟨rule.executed now.instant, List.mem_map.mpr ⟨rule, present, if_pos ?_⟩, named,
    now.instant, List.mem_singleton_self _, rfl⟩
  rw [named]
  exact ran

/-- In an orderly run with detached collaborators, two passes that run one rule which stays
registered between them are as far apart as its frequency at the second demands, however
many other passes lie between them. And what every pass reports are identifiers of due rules, in
the order of the registry and once each, and among them is exactly every due rule that succeeds
when the due rules before it have had their turn. Of the registry, each rule that is reported counts
one execution more and is marked with the time of the pass, and nothing else changes. -/
theorem passes_respect_schedules (engine : Engine σ) (distinct : Distinct engine.rules)
    (offset : Int) (commands : List Command) (run : Orderly offset commands) :
    (∀ early first middle second late,
      commands = early ++ .schedule (some first) :: middle ++ .schedule (some second) :: late →
      let before := (engine.runAll collaborators early).2
      let after := (before.runSchedule collaborators first).2
      let later := (after.runAll collaborators middle).2
      ∀ id ∈ (before.runSchedule collaborators first).1,
        (∀ front, front <+: middle → ((after.runAll collaborators front).2.find? id).isSome) →
        id ∈ (later.runSchedule collaborators second).1 →
        ∃ rule frequency time dayOfWeek dayOfMonth, later.find? id = some rule ∧
          rule.trigger = .schedule frequency time dayOfWeek dayOfMonth ∧
          frequency.Apart first second) ∧
    ∀ early now late, commands = early ++ .schedule (some now) :: late →
      let before := (engine.runAll collaborators early).2
      let due := before.dueRules now
      let ids := (before.runSchedule collaborators now).1
      let after := (before.runSchedule collaborators now).2
      ids.Sublist (due.map Rule.id) ∧ ids.Nodup ∧
        (∀ earlier rule rest, due = earlier ++ rule :: rest →
          (rule.id ∈ ids ↔
            Succeeds collaborators rule (scheduleContext now.instant) "schedule"
              (runEach collaborators (scheduleContext now.instant) now.instant
                (earlier.map Rule.id) before).2)) ∧
        after.rules = credited ids now.instant before.rules ∧ Tells ids before after := by
  constructor
  · rintro early first middle second late rfl before after later id ran stays runsAgain
    have early' : ∀ command ∈ early, command.isOrderly = true := by
      intro command member
      exact run.orderly command (by simp [member])
    have between : ∀ command ∈ middle, command.isOrderly = true := by
      intro command member
      exact run.orderly command (by simp [member])
    have distinctBefore := distinct_runAll detached early' engine distinct
    have distinctAfter : Distinct after.rules := by
      change Distinct (before.run collaborators (.schedule (some first))).2.rules
      exact distinct_run detached rfl before distinctBefore
    have distinctLater := distinct_runAll detached between after distinctAfter
    obtain ⟨rule, member, same, last, among, stamp⟩ :=
      marked_runAll detached between after distinctAfter stays
        (marked_of_ran detached distinctBefore ran)
    obtain ⟨again, present, named, due⟩ := due_of_ran detached distinctLater runsAgain
    obtain rfl : again = rule := distinctLater.unique present member (named.trans same.symm)
    obtain ⟨frequency, time, dayOfWeek, dayOfMonth, trigger, elapsed⟩ :=
      Rule.hasElapsed_of_isDue due stamp
    obtain ⟨begun, ended⟩ := run.between last among
    refine ⟨again, frequency, time, dayOfWeek, dayOfMonth, ?_, trigger, ?_⟩
    · rw [← same]
      exact find?_of_mem distinctLater member
    · have offsets : first.offset = second.offset :=
        (run.offset (.schedule (some first)) (by simp) first rfl).trans
          (run.offset (.schedule (some second)) (by simp) second rfl).symm
      have plain := run.plain (.schedule (some first)) (by simp) first rfl
      exact Frequency.apart_of_hasElapsed offsets plain begun ended elapsed
  · rintro early now late rfl before due ids after
    have orderly : ∀ command ∈ early, command.isOrderly = true :=
      fun command member => run.orderly command (List.mem_append_left _ member)
    have distinctBefore := distinct_runAll detached orderly engine distinct
    have passes := runSchedule_passes detached now before distinctBefore
    have once : ids.Nodup := passes.inOrder.nodup (distinctBefore.filter _)
    exact ⟨passes.inOrder, once, passes.succeeded, passes.rules, runEach_tells detached _ _ _ _⟩

end

/-- A rule that reminds everyone daily. -/
def reminder : Rule where
  id := "reminder"
  name := "Reminder"
  description := ""
  trigger := .schedule .daily "08:00" none none
  conditions := []
  actions := [⟨.generateReport, [("type", .string "due")]⟩]
  isActive := true
  createdAt := ⟨0, 0⟩
  lastExecuted := none
  executionCount := 0

/-- An engine that knows no rule but the reminder. -/
def reminding : Engine Unit where
  rules := [reminder]
  supply := ⟨fun _ => ⟨⟨0, 0⟩, 0⟩, fun _ => "0", 0, 0⟩
  outside := ()

/-- The first minute of the epoch. -/
def firstMorning : Reading := ⟨⟨60, 0⟩, 0⟩

/-- A day later. -/
def secondMorning : Reading := ⟨⟨86460, 0⟩, 0⟩

/-- The reminder gets another name between two mornings. -/
def retitling : Command := .update "reminder" { name := some "Overdue" }

/-- The reminder runs on both mornings, which are on different dates. -/
theorem reminder_respects_schedule :
    let after := (reminding.runSchedule .logging firstMorning).2
    let later := (after.runAll .logging [retitling]).2
    (∃ rule frequency time dayOfWeek dayOfMonth, later.find? "reminder" = some rule ∧
      rule.trigger = .schedule frequency time dayOfWeek dayOfMonth ∧
      frequency.Apart firstMorning secondMorning) ∧
    "reminder" ∈ (reminding.runSchedule .logging firstMorning).1 ∧
    Tells (reminding.runSchedule .logging firstMorning).1 reminding after := by
  intro after later
  let commands : List Command :=
    [] ++ .schedule (some firstMorning) :: [retitling] ++ .schedule (some secondMorning) :: []
  have run : Orderly 0 commands := by
    have readings : commands.filterMap Command.reading? = [firstMorning, secondMorning] := rfl
    refine ⟨by decide, ?_, ?_, ?_⟩
    · rw [readings]
      simp [Instant.NotAfter, firstMorning, secondMorning]
    · simp [commands, Command.reading?, retitling, firstMorning, secondMorning]
    · simp [commands, Command.reading?, retitling, firstMorning, secondMorning,
        Instant.isLeapSecond]
  have distinct : Distinct reminding.rules := List.nodup_singleton _
  obtain ⟨apart, every⟩ := passes_respect_schedules (Collaborators.logging_detached (σ := Unit))
    reminding distinct 0 commands run
  have ran : "reminder" ∈ (reminding.runSchedule .logging firstMorning).1 := by decide +kernel
  have again : "reminder" ∈ (later.runSchedule .logging secondMorning).1 := by decide +kernel
  refine ⟨apart [] firstMorning [retitling] secondMorning [] rfl "reminder" ran ?_ again, ran,
    (every [] firstMorning [retitling, .schedule (some secondMorning)] rfl).2.2.2.2⟩
  intro front leads
  rcases List.prefix_cons_iff.mp leads with rfl | ⟨rest, rfl, nothing⟩
  · decide +kernel
  · rw [List.prefix_nil.mp nothing]
    decide +kernel

end Engine
end CampusRules
