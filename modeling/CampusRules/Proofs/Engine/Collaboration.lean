import CampusRules.Engine.Rehearsal
import CampusRules.Proofs.Engine.Commitment
import CampusRules.Proofs.Engine.Sections
import CampusRules.Proofs.Registry.Evolution

/-!
# What collaborators may do to an engine

While a message is handed over, the engine is out of the hands of the operation that
hands it over. Collaborators are *bound* when all they do to its rules and its events they
do by commands, carried out with collaborators that are bound themselves. They are
*detached* when they do nothing to the engine but log. The collaborators that come with the
engine are detached, and those of a rehearsal are bound.

With detached collaborators, the rules that an operation reports are exactly those whose
executions it tells of.
-/

namespace CampusRules

/-- The rules that a command ran, by its answer. -/
def Command.ran : Command → Except Failure Answer → List String
  | .execute id _, .ok (.done true) => [id]
  | _, .ok (.ran ids) => ids
  | _, _ => []

/-- Whether a command lets rules be carried out. The others turn to no collaborator. -/
def Command.carriesOut : Command → Bool
  | .execute _ _ | .trigger _ _ | .schedule _ => true
  | _ => false

variable {σ : Type}

namespace Engine

open Registry

/-- What bound collaborators may do: anything that leaves rules and events alone, and
commands, in any number. -/
inductive Reaches : Engine σ → Engine σ → Prop where
  | aside {before after : Engine σ} (rules : after.rules = before.rules)
      (events : after.events = before.events) : Reaches before after
  | trans {first second third : Engine σ} (earlier : Reaches first second)
      (later : Reaches second third) : Reaches first third
  | command (collaborators : Collaborators σ)
      (bound : ∀ handoff engine, Reaches engine (collaborators.deliver handoff engine).2)
      (command : Command) (engine : Engine σ) :
      Reaches engine (engine.run collaborators command).2

/-- Only what collaborators and actions leave behind has changed: their own state, the log,
and the events about actions. -/
def Aside (before after : Engine σ) : Prop :=
  ∃ outside log actionEvents, after = { before with outside, log, actionEvents }

/-- Leaving the engine aside once more is leaving it aside. -/
theorem Aside.trans {first second third : Engine σ} (earlier : Aside first second)
    (later : Aside second third) : Aside first third := by
  obtain ⟨_, _, _, rfl⟩ := earlier
  obtain ⟨outside, log, actionEvents, rfl⟩ := later
  exact ⟨outside, log, actionEvents, rfl⟩

/-- Nothing is left behind by doing nothing. -/
theorem Aside.refl (engine : Engine σ) : Aside engine engine := ⟨_, _, _, rfl⟩

/-- With collaborators that leave the engine aside, actions do. -/
theorem actionSections_aside {collaborators : Collaborators σ}
    (deliver : ∀ handoff engine, Aside engine (collaborators.deliver handoff engine).2) :
    ActionSections collaborators Aside where
  refl := .refl
  trans := .trans
  action _ _ := ⟨_, _, _, rfl⟩
  record _ _ := ⟨_, _, _, rfl⟩
  deliver := deliver

/-- Crediting an execution counts it, and then saves; without a rule it does nothing. -/
theorem credit_engine (id : String) (time : Instant) (engine : Engine σ) :
    (engine.credit id time).2 =
      match engine.position? id with
      | none => engine
      | some index =>
        let rules := engine.rules.modify index (·.executed time)
        (save rules { engine with rules }).2 := by
  cases position : engine.position? id with
  | none => simp [credit, bump, position]
  | some index =>
    obtain ⟨rule, there, _⟩ := position?_rule position
    simp [credit, bump, position, there]

/-- Crediting an execution changes nothing but rules and disk. -/
theorem credit_changes (id : String) (time : Instant) (engine : Engine σ) :
    ∃ rules disk, (engine.credit id time).2 = { engine with rules, disk } := by
  rw [credit_engine]
  split
  · exact ⟨_, _, rfl⟩
  · rw [save_changes_disk]
    exact ⟨_, _, rfl⟩

/-- The registry after a credit is that with one execution counted, whether or not it could
be saved. -/
theorem credit_rules (id : String) (time : Instant) (engine : Engine σ)
    (distinct : Distinct engine.rules) :
    (engine.credit id time).2.rules = adjust id (·.executed time) engine.rules := by
  rw [credit_engine]
  split
  · rename_i missing
    exact (adjust_of_absent id _ engine.rules (ne_of_findIdx_none missing)).symm
  · rename_i index position
    rw [save_changes_disk]
    exact modify_findIdx _ _ _ _ distinct position

end Engine

namespace Collaborators

open Engine

/-- Collaborators that change rules and events by commands only. -/
def Bound (collaborators : Collaborators σ) : Prop :=
  ∀ handoff engine, Reaches engine (collaborators.deliver handoff engine).2

/-- Collaborators that do nothing to the engine but log. -/
def Detached (collaborators : Collaborators σ) : Prop :=
  ∀ handoff engine, Aside engine (collaborators.deliver handoff engine).2

/-- Detached collaborators are bound. -/
theorem Detached.bound {collaborators : Collaborators σ} (detached : collaborators.Detached) :
    collaborators.Bound := by
  intro handoff engine
  obtain ⟨_, _, _, left⟩ := detached handoff engine
  exact .aside (by rw [left]) (by rw [left])

/-- The collaborators that come with the engine are detached. -/
theorem logging_detached : (logging : Collaborators σ).Detached :=
  fun _ _ => ⟨_, _, _, rfl⟩

end Collaborators

namespace Engine

/-- The events that are sent tell of executions of these rules, in this order. -/
def Tells (ids : List String) (before after : Engine σ) : Prop :=
  ∃ sent, after.events = before.events ++ sent ∧ Event.executedIds sent = ids

/-- What is told in a row is told one after the other. -/
theorem Tells.trans {ids others : List String} {first second third : Engine σ}
    (earlier : Tells ids first second) (later : Tells others second third) :
    Tells (ids ++ others) first third := by
  obtain ⟨sent, told, rfl⟩ := earlier
  obtain ⟨more, toldLater, rfl⟩ := later
  exact ⟨sent ++ more, by rw [toldLater, told, List.append_assoc],
    Event.executedIds_append sent more⟩

/-- A command that lets no rules be carried out does the same with any collaborators. -/
theorem run_of_not_carriesOut {command : Command} (quiet : command.carriesOut = false)
    (collaborators others : Collaborators σ) (engine : Engine σ) :
    engine.run collaborators command = engine.run others command := by
  cases command <;> first | rfl | cases quiet

/-- Without an event, no execution is told. -/
theorem Tells.of_same {before after : Engine σ} (same : after.events = before.events) :
    Tells [] before after :=
  ⟨[], by simpa using same, rfl⟩

/-- A change of the registry tells of no execution. -/
theorem tells_committed {next : List Rule} {event : Event} {before after : Engine σ}
    (quiet : event.executedId? = none) (committed : Committed next event before after) :
    Tells [] before after :=
  ⟨[event], committed.events, by simp [Event.executedIds, quiet]⟩

variable {collaborators : Collaborators σ} (detached : collaborators.Detached)
include detached

/-- Carrying out the actions of a rule tells nothing about rules. -/
theorem performAll_aside (id : String) (actions : List Action) (context : Json)
    (engine : Engine σ) : Aside engine (performAll collaborators id actions context engine).2 :=
  (actionSections_aside detached).performFrom id context actions 0 engine

/-- An execution that succeeds is told, and no other is. -/
theorem carryOut_tells (rule : Rule) (context : Json) (time : Instant) (reason : String)
    (engine : Engine σ) :
    Tells (if (carryOut collaborators rule context time reason engine).1 then [rule.id] else [])
      engine (carryOut collaborators rule context time reason engine).2 := by
  let triggered := engine.announce (.triggered rule.id reason)
  have performed := performAll_aside detached rule.id rule.actions context triggered
  unfold carryOut
  dsimp only
  split
  · exact ⟨[_, _], List.append_assoc .., rfl⟩
  · split
    · rename_i failure after result
      rw [result] at performed
      obtain ⟨_, _, _, rfl⟩ := performed
      exact ⟨[_, _], List.append_assoc .., rfl⟩
    · rename_i after result
      rw [result] at performed
      obtain ⟨_, _, _, rfl⟩ := performed
      obtain ⟨rules, disk, credited⟩ := credit_changes rule.id time _
      rw [credited]
      exact ⟨[_, _], List.append_assoc .., rfl⟩

/-- An attempt tells of the execution that it reports. -/
theorem attempt_tells (id : String) (context : Json) (time : Instant) (reason : String)
    (engine : Engine σ) :
    Tells (if (attempt collaborators id context time reason engine).1 then [id] else []) engine
      (attempt collaborators id context time reason engine).2 := by
  cases found : (engine.find? id).filter (·.isActive) with
  | none =>
    simp only [attempt, found]
    exact .of_same rfl
  | some rule =>
    have same : rule.id = id := by
      simpa using List.find?_some (Option.filter_eq_some_iff.mp found).1
    simp only [attempt, found]
    rw [← same]
    exact carryOut_tells detached rule context time reason engine

/-- A row of attempts at the clock's times tells of the executions that it reports. -/
theorem triggerEach_tells (context : Json) (reason : String) (ids : List String)
    (engine : Engine σ) :
    Tells (triggerEach collaborators context reason ids engine).1 engine
      (triggerEach collaborators context reason ids engine).2 := by
  induction ids generalizing engine with
  | nil => exact .of_same rfl
  | cons id rest inductionHypothesis =>
    have attempted : Tells _ engine _ :=
      attempt_tells detached id context engine.look.1.instant reason engine.look.2
    have both := attempted.trans (inductionHypothesis _)
    unfold triggerEach
    dsimp only
    split at both
    · simpa [*] using both
    · simpa [*] using both

/-- A row of attempts at one time tells of the executions that it reports. -/
theorem runEach_tells (context : Json) (time : Instant) (ids : List String)
    (engine : Engine σ) :
    Tells (runEach collaborators context time ids engine).1 engine
      (runEach collaborators context time ids engine).2 := by
  induction ids generalizing engine with
  | nil => exact .of_same rfl
  | cons id rest inductionHypothesis =>
    have attempted := attempt_tells detached id context time "schedule" engine
    have both := attempted.trans (inductionHypothesis _)
    unfold runEach
    dsimp only
    split at both
    · simpa [*] using both
    · simpa [*] using both

/-- A command tells of the executions that it reports. -/
theorem run_tells (command : Command) (engine : Engine σ) :
    Tells (command.ran (engine.run collaborators command).1) engine
      (engine.run collaborators command).2 := by
  cases command with
  | add new =>
    have quiet : Command.ran (.add new) ((engine.add new).1.map .added) = [] := by
      cases (engine.add new).1 <;> rfl
    simp only [run, answered, quiet]
    rcases add_outcome new engine with ⟨_, _, untouched⟩ | ⟨_, committed⟩
    · exact .of_same untouched.events
    · exact tells_committed rfl committed
  | remove id =>
    have quiet : Command.ran (.remove id) ((engine.remove id).1.map .done) = [] := by
      cases (engine.remove id).1 <;> rfl
    simp only [run, answered, quiet]
    rcases remove_outcome id engine with
      ⟨_, _, untouched⟩ | ⟨_, _, untouched⟩ | ⟨_, _, _, committed⟩
    · exact .of_same untouched.events
    · exact .of_same untouched.events
    · exact tells_committed rfl committed
  | update id change =>
    have quiet : Command.ran (.update id change) ((engine.update id change).1.map .done) = [] := by
      cases (engine.update id change).1 <;> rfl
    simp only [run, answered, quiet]
    rcases update_outcome id change engine with
      ⟨_, _, untouched⟩ | ⟨_, _, untouched⟩ | ⟨_, _, _, _, _, _, _, committed⟩
    · exact .of_same untouched.events
    · exact .of_same untouched.events
    · exact tells_committed rfl committed
  | get id => exact .of_same rfl
  | rules => exact .of_same rfl
  | activeRules => exact .of_same rfl
  | execute id context =>
    have told : Tells _ engine _ :=
      attempt_tells detached id context engine.look.1.instant "manual" engine.look.2
    have reported : Command.ran (.execute id context)
        (.ok (.done (engine.execute collaborators id context).1)) =
          if (engine.execute collaborators id context).1 then [id] else [] := by
      cases (engine.execute collaborators id context).1 <;> rfl
    simp only [run, reported]
    exact told
  | trigger event context => exact triggerEach_tells detached context _ _ engine
  | schedule now =>
    cases now with
    | none => exact runEach_tells detached _ _ _ engine.look.2
    | some reading => exact runEach_tells detached _ _ _ engine

end Engine

namespace Rehearsal

open Engine

/-- What was recorded about a rehearsal is nothing to rules and events. -/
theorem reaches_outside (engine : Engine State) (outside : State) :
    Reaches engine { engine with outside } := .aside rfl rfl

/-- A rehearsal calls back by commands only, which meet the collaborators of a rehearsal
again, with fewer calls back left. -/
theorem deliver_bound (assisted : Bool) (depth : Nat) :
    (⟨assisted, deliver assisted depth⟩ : Collaborators State).Bound := by
  induction depth with
  | zero =>
    intro handoff engine
    dsimp only
    unfold deliver
    dsimp only
    split
    · exact .aside rfl rfl
    · split <;> exact .aside rfl rfl
  | succ below inductionHypothesis =>
    intro handoff engine
    dsimp only
    unfold deliver
    dsimp only
    split
    · exact .aside rfl rfl
    · split
      · exact .aside rfl rfl
      · split
        · rename_i less callBack left same _
          obtain rfl : below = less := Nat.succ.inj same
          have recorded := reaches_outside engine left
          cases request : callBack.request with
          | error failure =>
            exact recorded.trans (reaches_outside _ _)
          | ok command =>
            have called := recorded.trans
              (.command ⟨assisted, deliver assisted below⟩ inductionHypothesis command _)
            exact called.trans (reaches_outside _ _)
        · exact .aside rfl rfl

/-- The collaborators of a rehearsal are bound. -/
theorem collaborators_bound (state : State) : (collaborators state).Bound :=
  deliver_bound _ _

end Rehearsal
end CampusRules
