import CampusRules.Proofs.Engine.Opening
import CampusRules.Proofs.Engine.Pass

/-!
# What an engine remembers when it is opened again

As long as every execution that is credited is also saved, the document of an engine tells of its
registry: either it holds the text of all rules, or nothing has been saved since the engine was
opened, and what it was opened on is still there. The rules are legible and valid all the while,
so they are what opens again, unless the document refuses one of them for its depth.

That happens. A request is read by itself, and stored inside one more array, so a rule that is
nested as deep as a request may be is accepted, stored, and takes all others with it when the
document is opened again.
-/

namespace CampusRules

open Json (Raw)

/-- Whether a command is one that a text or a clock can give: what it asks to register or to change
is read from the text of a request, and a reading shows a time. -/
def Command.Accepted : Command → Prop
  | .add new => ∃ text,
    NewRule.read (.ofText text) = .ok new ∨ NewRule.read (.ofStart text) = .ok new
  | .update _ change => ∃ text,
    RuleChange.read (.ofText text) = .ok change ∨ RuleChange.read (.ofStart text) = .ok change
  | .schedule (some now) => now.instant.IsTime
  | _ => True

namespace Engine

variable {σ : Type}

section Saves

variable (collaborators : Collaborators σ)

/-- Whether the execution of a rule that is still registered is saved when it is credited. -/
def CreditSaves (id : String) (time : Instant) (engine : Engine σ) : Prop :=
  match engine.bump id time with
  | (none, _) => True
  | (some _, bumped) => (bumped.save bumped.rules).1 = .ok ()

instance (id : String) (time : Instant) (engine : Engine σ) :
    Decidable (CreditSaves id time engine) :=
  match bumped : engine.bump id time with
  | (none, _) => isTrue (by simp [CreditSaves, bumped])
  | (some _, after) =>
    decidable_of_iff ((after.save after.rules).1 = .ok ()) (by simp [CreditSaves, bumped])

/-- Whether carrying out a rule saves the execution, if the rule succeeds. -/
def CarryOutSaves (rule : Rule) (context : Json) (time : Instant) (reason : String)
    (engine : Engine σ) : Prop :=
  Succeeds collaborators rule context reason engine →
    CreditSaves rule.id time (performAll collaborators rule.id rule.actions context
      (engine.announce (.triggered rule.id reason))).2

instance (rule : Rule) (context : Json) (reason : String) (engine : Engine σ) :
    Decidable (Succeeds collaborators rule context reason engine) :=
  inferInstanceAs (Decidable (_ ∧ _))

instance (rule : Rule) (context : Json) (time : Instant) (reason : String) (engine : Engine σ) :
    Decidable (CarryOutSaves collaborators rule context time reason engine) :=
  inferInstanceAs (Decidable (_ → _))

/-- Whether an attempt saves the execution, if there is one. -/
def AttemptSaves (id : String) (context : Json) (time : Instant) (reason : String)
    (engine : Engine σ) : Prop :=
  ∀ rule ∈ (engine.find? id).filter (·.isActive),
    CarryOutSaves collaborators rule context time reason engine

instance (id : String) (context : Json) (time : Instant) (reason : String) (engine : Engine σ) :
    Decidable (AttemptSaves collaborators id context time reason engine) :=
  inferInstanceAs (Decidable (∀ rule ∈ _, _))

/-- Whether every execution of a row of attempts at the clock's times is saved. -/
def TriggerEachSaves (context : Json) (reason : String) : List String → Engine σ → Prop
  | [], _ => True
  | id :: rest, engine =>
    AttemptSaves collaborators id context engine.look.1.instant reason engine.look.2 ∧
      TriggerEachSaves context reason rest
        (attempt collaborators id context engine.look.1.instant reason engine.look.2).2

instance decidableTriggerEachSaves (context : Json) (reason : String) :
    (ids : List String) → (engine : Engine σ) →
      Decidable (TriggerEachSaves collaborators context reason ids engine)
  | [], _ => isTrue trivial
  | _ :: rest, _ =>
    have := decidableTriggerEachSaves context reason rest
    inferInstanceAs (Decidable (_ ∧ _))

/-- Whether every execution of a row of attempts at one time is saved. -/
def RunEachSaves (context : Json) (time : Instant) : List String → Engine σ → Prop
  | [], _ => True
  | id :: rest, engine =>
    AttemptSaves collaborators id context time "schedule" engine ∧
      RunEachSaves context time rest
        (attempt collaborators id context time "schedule" engine).2

instance decidableRunEachSaves (context : Json) (time : Instant) :
    (ids : List String) → (engine : Engine σ) →
      Decidable (RunEachSaves collaborators context time ids engine)
  | [], _ => isTrue trivial
  | _ :: rest, _ =>
    have := decidableRunEachSaves context time rest
    inferInstanceAs (Decidable (_ ∧ _))

/-- Whether every execution of a pass is saved. -/
def PassSaves (now : Reading) (engine : Engine σ) : Prop :=
  RunEachSaves collaborators (scheduleContext now.instant) now.instant (engine.due now) engine

/-- Whether every execution of a command is saved. A call that changes the registry either saves
what it changes or touches nothing, so nothing is asked of it. -/
def RunSaves (command : Command) (engine : Engine σ) : Prop :=
  match command with
  | .execute id context =>
    AttemptSaves collaborators id context engine.look.1.instant "manual" engine.look.2
  | .trigger event context =>
    TriggerEachSaves collaborators context ("event:" ++ event) (engine.listeners event) engine
  | .schedule (some now) => PassSaves collaborators now engine
  | .schedule none => PassSaves collaborators engine.look.1 engine.look.2
  | _ => True

instance : (command : Command) → (engine : Engine σ) →
    Decidable (RunSaves collaborators command engine)
  | .execute .., _ => inferInstanceAs (Decidable (AttemptSaves ..))
  | .trigger .., _ => inferInstanceAs (Decidable (TriggerEachSaves ..))
  | .schedule (some _), _ | .schedule none, _ => inferInstanceAs (Decidable (RunEachSaves ..))
  | .add _, _ | .remove _, _ | .update _ _, _ | .get _, _ | .rules, _ | .activeRules, _ =>
    isTrue trivial

/-- Whether every execution of a run of commands is saved. -/
def RunAllSaves : List Command → Engine σ → Prop
  | [], _ => True
  | command :: rest, engine =>
    RunSaves collaborators command engine ∧ RunAllSaves rest (engine.run collaborators command).2

instance decidableRunAllSaves :
    (commands : List Command) → (engine : Engine σ) →
      Decidable (RunAllSaves collaborators commands engine)
  | [], _ => isTrue trivial
  | _ :: rest, _ =>
    have := decidableRunAllSaves rest
    inferInstanceAs (Decidable (_ ∧ _))

end Saves

/-- Whether an engine that is opened now with a configuration has the rules that this one has: they
are the valid ones that can be loaded, or nothing can be loaded and there are none. -/
def AsOpened (config : EngineConfig) (location : Location) (engine : Engine σ) : Prop :=
  match (Document.load location engine.disk).1 with
  | some stored => engine.rules = stored.filter Rule.isValid
  | none => config.installDefaults = false ∧ engine.rules = []

/-- An engine whose document tells of its registry, and whose rules and clock can be written. -/
structure Kept (config : EngineConfig) (location : Location) (engine : Engine σ) : Prop where
  storage : engine.storage = some location
  clock : ∀ look, (engine.supply.clock look).instant.IsTime
  legible : ∀ rule ∈ engine.rules, rule.Legible
  valid : ∀ rule ∈ engine.rules, rule.isValid = true
  document : engine.disk.read? location = some (Document.text engine.rules).toUTF8 ∨
    AsOpened config location engine

variable {config : EngineConfig} {location : Location}

/-- What leaves rules, clock and document alone is no matter. -/
theorem Kept.of_same {before after : Engine σ} (kept : Kept config location before)
    (rules : after.rules = before.rules) (storage : after.storage = before.storage)
    (clock : after.supply.clock = before.supply.clock)
    (node : after.disk.node? location = before.disk.node? location) :
    Kept config location after := by
  have read : after.disk.read? location = before.disk.read? location := by
    rw [Disk.read?, Disk.read?, node]
  refine ⟨storage.trans kept.storage, ?_, ?_, ?_, ?_⟩
  · rw [clock]
    exact kept.clock
  · rw [rules]
    exact kept.legible
  · rw [rules]
    exact kept.valid
  · rcases kept.document with whole | opened
    · exact .inl (by rw [read, rules, whole])
    · refine .inr ?_
      rw [AsOpened, Document.load_fst, Disk.readText?] at opened ⊢
      rw [read, rules]
      exact opened

/-- What is left untouched is kept. -/
theorem Kept.untouched {before after : Engine σ} (kept : Kept config location before)
    (untouched : Untouched before after) (clock : after.supply.clock = before.supply.clock) :
    Kept config location after :=
  kept.of_same untouched.rules untouched.storage clock (untouched.document location kept.storage)

/-- What is committed is kept, if it can be written. -/
theorem Kept.committed {before after : Engine σ} (kept : Kept config location before)
    {next : List Rule} {event : Event} (committed : Committed next event before after)
    (clock : after.supply.clock = before.supply.clock) (legible : ∀ rule ∈ next, rule.Legible)
    (valid : ∀ rule ∈ next, rule.isValid = true) : Kept config location after := by
  refine ⟨committed.storage.trans kept.storage, ?_, ?_, ?_, .inl ?_⟩
  · rw [clock]
    exact kept.clock
  · rw [committed.rules]
    exact legible
  · rw [committed.rules]
    exact valid
  · rw [committed.rules]
    exact committed.document location kept.storage

/-- Saving takes nothing from what the world supplies. -/
theorem save_supply (rules : List Rule) (engine : Engine σ) :
    (engine.save rules).2.supply = engine.supply := by
  rw [save_changes_disk]

/-- A commit that is announced takes nothing from what the world supplies. -/
theorem concluded_supply {α : Type} (answer : α) (event : Event) (rules : List Rule)
    (engine : Engine σ) :
    (concluded answer event (engine.commit rules)).2.supply = engine.supply := by
  have same := save_supply rules engine
  rcases saved : engine.save rules with ⟨outcome, after⟩
  rw [saved] at same
  cases outcome with
  | ok _ =>
    simp only [commit, saved, concluded]
    exact same
  | error _ =>
    simp only [commit, saved, concluded]
    exact same

/-- Adding a rule never sets the clock. -/
theorem add_clock (new : NewRule) (engine : Engine σ) :
    (engine.add new).2.supply.clock = engine.supply.clock := by
  have made := make_clock new engine
  unfold add
  dsimp only
  unfold insert
  split
  · exact made
  · split
    · exact made
    · rw [concluded_supply]
      exact made

/-- Removing a rule never sets the clock. -/
theorem remove_clock (id : String) (engine : Engine σ) :
    (engine.remove id).2.supply.clock = engine.supply.clock := by
  unfold remove
  split
  · rfl
  · rw [concluded_supply]

/-- Changing a rule never sets the clock. -/
theorem update_clock (id : String) (change : RuleChange) (engine : Engine σ) :
    (engine.update id change).2.supply.clock = engine.supply.clock := by
  unfold update
  split
  · rfl
  · dsimp only
    split
    · rfl
    · rw [concluded_supply]

/-- Adding a rule that was read keeps what an engine remembers. -/
theorem Kept.add {engine : Engine σ} (kept : Kept config location engine) {new : NewRule}
    (accepted : Command.Accepted (.add new)) : Kept config location (engine.add new).2 := by
  have legible : new.Legible := by
    obtain ⟨text, read | read⟩ := accepted
    · exact NewRule.legible_of_read read
    · exact NewRule.legible_of_read read
  rcases add_outcome new engine with ⟨_, _, untouched⟩ | ⟨done, committed⟩
  · exact kept.untouched untouched (add_clock new engine)
  · have valid := (insert_accepted done).1
    refine kept.committed committed (add_clock new engine) ?_ ?_
    · intro rule member
      rcases List.mem_append.mp member with earlier | latest
      · exact kept.legible rule earlier
      · obtain rfl := List.mem_singleton.mp latest
        exact Rule.legible_ofNew legible _ (kept.clock _)
    · intro rule member
      rcases List.mem_append.mp member with earlier | latest
      · exact kept.valid rule earlier
      · obtain rfl := List.mem_singleton.mp latest
        exact valid

/-- Removing a rule keeps what an engine remembers. -/
theorem Kept.remove {engine : Engine σ} (kept : Kept config location engine) (id : String) :
    Kept config location (engine.remove id).2 := by
  rcases remove_outcome id engine with
    ⟨_, _, untouched⟩ | ⟨_, _, untouched⟩ | ⟨_, index, _, committed⟩
  · exact kept.untouched untouched (remove_clock id engine)
  · exact kept.untouched untouched (remove_clock id engine)
  · refine kept.committed committed (remove_clock id engine) ?_ ?_
    · exact fun rule member => kept.legible rule (List.mem_of_mem_eraseIdx member)
    · exact fun rule member => kept.valid rule (List.mem_of_mem_eraseIdx member)

/-- Changing a rule as a request asks keeps what an engine remembers. -/
theorem Kept.update {engine : Engine σ} (kept : Kept config location engine) {id : String}
    {change : RuleChange} (accepted : Command.Accepted (.update id change)) :
    Kept config location (engine.update id change).2 := by
  have legible : change.Legible := by
    obtain ⟨text, read | read⟩ := accepted
    · exact RuleChange.legible_of_read read
    · exact RuleChange.legible_of_read read
  rcases update_outcome id change engine with
    ⟨_, _, untouched⟩ | ⟨_, _, untouched⟩ |
      ⟨_, index, rule, _, there, _, flawless, committed⟩
  · exact kept.untouched untouched (update_clock id change engine)
  · exact kept.untouched untouched (update_clock id change engine)
  · have before := kept.legible rule (List.mem_of_getElem? there)
    refine kept.committed committed (update_clock id change engine) ?_ ?_
    · intro other member
      rcases List.mem_or_eq_of_mem_set member with earlier | rfl
      · exact kept.legible other earlier
      · exact before.merge legible
    · intro other member
      rcases List.mem_or_eq_of_mem_set member with earlier | rfl
      · exact kept.valid other earlier
      · rw [Rule.isValid, flawless]
        rfl

/-- A look at the clock keeps what an engine remembers. -/
theorem Kept.look {engine : Engine σ} (kept : Kept config location engine) :
    Kept config location engine.look.2 :=
  kept.of_same rfl rfl rfl rfl

/-- Telling of something keeps what an engine remembers. -/
theorem Kept.announce {engine : Engine σ} (kept : Kept config location engine) (event : Event) :
    Kept config location (engine.announce event) :=
  kept.of_same rfl rfl rfl rfl

/-- What leaves the engine aside keeps what it remembers. -/
theorem Kept.aside {before after : Engine σ} (kept : Kept config location before)
    (aside : Aside before after) : Kept config location after := by
  obtain ⟨_, _, _, rfl⟩ := aside
  exact kept.of_same rfl rfl rfl rfl

/-- A credit that is saved keeps what an engine remembers. -/
theorem Kept.credit {engine : Engine σ} (kept : Kept config location engine) {id : String}
    {time : Instant} (shown : time.IsTime) (saves : CreditSaves id time engine) :
    Kept config location (engine.credit id time).2 := by
  cases position : engine.position? id with
  | none =>
    rw [credit_engine, position]
    exact kept
  | some index =>
    obtain ⟨rule, there, _⟩ := position?_rule position
    have bumped : engine.bump id time = (some (rule.executed time).executionCount,
        { engine with rules := engine.rules.modify index (·.executed time) }) := by
      simp [bump, position, there]
    rw [CreditSaves, bumped] at saves
    rw [credit_engine, position]
    dsimp only at saves ⊢
    have modified := modify_of_getElem? engine.rules (·.executed time) index rule there
    rw [modified] at saves ⊢
    rcases save_outcome (engine.rules.set index (rule.executed time))
        { engine with rules := engine.rules.set index (rule.executed time) } with
      ⟨_, failed, _⟩ | ⟨_, whole⟩
    · rw [saves] at failed
      cases failed
    · have read := whole location kept.storage
      rw [save_changes_disk]
      refine ⟨kept.storage, kept.clock, ?_, ?_, .inl read⟩
      · intro other member
        rcases List.mem_or_eq_of_mem_set member with earlier | rfl
        · exact kept.legible other earlier
        · exact (kept.legible rule (List.mem_of_getElem? there)).executed shown
      · intro other member
        rcases List.mem_or_eq_of_mem_set member with earlier | rfl
        · exact kept.valid other earlier
        · exact kept.valid rule (List.mem_of_getElem? there)

section Runs

variable {collaborators : Collaborators σ} (detached : collaborators.Detached)
include detached

/-- Carrying out a rule whose execution is saved keeps what an engine remembers. -/
theorem Kept.carryOut {engine : Engine σ} (kept : Kept config location engine) {rule : Rule}
    {context : Json} {time : Instant} {reason : String} (shown : time.IsTime)
    (saves : CarryOutSaves collaborators rule context time reason engine) :
    Kept config location (carryOut collaborators rule context time reason engine).2 := by
  have triggered := kept.announce (.triggered rule.id reason)
  have performed := triggered.aside (performAll_aside detached rule.id rule.actions context _)
  cases holds : Conditions.hold rule.conditions context with
  | false =>
    rw [carryOut_of_not_hold holds]
    exact triggered.announce _
  | true =>
    rcases result : performAll collaborators rule.id rule.actions context
        (engine.announce (.triggered rule.id reason)) with ⟨_ | _, after⟩
    · rw [result] at performed
      rw [carryOut_of_error holds result]
      exact performed.announce _
    · have credited := saves ⟨holds, by rw [result]⟩
      rw [result] at performed credited
      rw [carryOut_of_ok holds result]
      exact (performed.credit shown credited).announce _

/-- An attempt whose execution is saved keeps what an engine remembers. -/
theorem Kept.attempt {engine : Engine σ} (kept : Kept config location engine) {id : String}
    {context : Json} {time : Instant} {reason : String} (shown : time.IsTime)
    (saves : AttemptSaves collaborators id context time reason engine) :
    Kept config location (attempt collaborators id context time reason engine).2 := by
  unfold Engine.attempt
  split
  · exact kept
  · rename_i rule found
    exact kept.carryOut detached shown (saves rule found)

/-- A row of attempts at the clock's times whose executions are saved keeps what an engine
remembers. -/
theorem Kept.triggerEach {context : Json} {reason : String} {ids : List String}
    {engine : Engine σ} (kept : Kept config location engine)
    (saves : TriggerEachSaves collaborators context reason ids engine) :
    Kept config location (triggerEach collaborators context reason ids engine).2 := by
  induction ids generalizing engine with
  | nil => exact kept
  | cons id rest inductionHypothesis =>
    obtain ⟨here, behind⟩ := saves
    exact inductionHypothesis (kept.look.attempt detached (kept.clock _) here) behind

/-- A row of attempts at one time whose executions are saved keeps what an engine remembers. -/
theorem Kept.runEach {context : Json} {time : Instant} (shown : time.IsTime) {ids : List String}
    {engine : Engine σ} (kept : Kept config location engine)
    (saves : RunEachSaves collaborators context time ids engine) :
    Kept config location (runEach collaborators context time ids engine).2 := by
  induction ids generalizing engine with
  | nil => exact kept
  | cons id rest inductionHypothesis =>
    obtain ⟨here, behind⟩ := saves
    exact inductionHypothesis (kept.attempt detached shown here) behind

/-- A command whose executions are saved keeps what an engine remembers. -/
theorem Kept.run {command : Command} (accepted : command.Accepted) {engine : Engine σ}
    (kept : Kept config location engine) (saves : RunSaves collaborators command engine) :
    Kept config location (engine.run collaborators command).2 := by
  cases command with
  | add new => exact kept.add accepted
  | remove id => exact kept.remove id
  | update id change => exact kept.update accepted
  | get id => exact kept
  | rules => exact kept
  | activeRules => exact kept
  | execute id context => exact kept.look.attempt detached (kept.clock _) saves
  | trigger event context => exact kept.triggerEach detached saves
  | schedule now =>
    cases now with
    | none => exact kept.look.runEach detached (kept.clock _) saves
    | some reading => exact kept.runEach detached accepted saves

/-- A run of commands whose executions are saved keeps what an engine remembers. -/
theorem Kept.runAll {commands : List Command} (accepted : ∀ command ∈ commands, command.Accepted)
    {engine : Engine σ} (kept : Kept config location engine)
    (saves : RunAllSaves collaborators commands engine) :
    Kept config location (engine.runAll collaborators commands).2 := by
  induction commands generalizing engine with
  | nil => exact kept
  | cons command rest inductionHypothesis =>
    obtain ⟨here, behind⟩ := saves
    have first := kept.run detached (accepted command List.mem_cons_self) here
    exact inductionHypothesis (fun other member => accepted other (List.mem_cons_of_mem _ member))
      first behind

end Runs

/-- An engine that has opened is kept: it has loaded its rules, or committed the default ones, or
begins with none where there is nothing to load. -/
theorem kept_start (place : config.storage = some location) {disk : Disk} {supply : Supply}
    {outside : σ} (clock : ∀ look, (supply.clock look).instant.IsTime)
    (opened : (start config disk supply outside).1 = .ok ()) :
    Kept config location (start config disk supply outside).2 := by
  cases loaded : (Document.load location disk).1 with
  | some stored =>
    rw [start_of_stored place loaded]
    have read : ∀ rule ∈ stored, rule.Legible := by
      intro rule member
      rw [Document.load_fst] at loaded
      obtain ⟨content, _, parsed⟩ := Option.bind_eq_some_iff.mp loaded
      exact (Document.of_parse? parsed member).1
    refine ⟨rfl, clock, ?_, ?_, .inr ?_⟩
    · exact fun rule member => read rule (List.mem_filter.mp member).1
    · exact fun rule member => (List.mem_filter.mp member).2
    · simp only [AsOpened, loaded]
  | none =>
    rw [start_of_nothing place loaded] at opened ⊢
    dsimp only at opened ⊢
    by_cases install : config.installDefaults = true
    · rw [if_pos install] at opened ⊢
      obtain ⟨after, committed, stored⟩ := commit_of_ok opened
      obtain ⟨supplied, same, made⟩ :=
        makeAll_engine DefaultRules.all (unstocked location disk supply outside)
      have valid := (wellFormed_defaults (unstocked location disk supply outside)).valid
      rw [committed]
      refine ⟨?_, ?_, legible_makeAll (fun _ => DefaultRules.legible) clock, valid,
        .inl (stored location ?_)⟩
      · rw [made]
        rfl
      · rw [made]
        dsimp only
        rw [same]
        exact clock
      · rw [made]
        rfl
    · rw [if_neg install]
      have bare : ∀ rule, rule ∉ (unstocked location disk supply outside).rules :=
        fun _ => List.not_mem_nil
      refine ⟨rfl, clock, fun rule member => absurd member (bare rule),
        fun rule member => absurd member (bare rule), .inr ?_⟩
      have still : (Document.load location (unstocked location disk supply outside).disk).1 = none :=
        Document.load_again loaded
      simp only [AsOpened, still]
      exact ⟨Bool.eq_false_iff.mpr install, rfl⟩

/-- An engine that is kept opens again with its rules, if all of them leave room for their
document. -/
theorem Kept.start {engine : Engine σ} (kept : Kept config location engine)
    (place : config.storage = some location) (fits : ∀ rule ∈ engine.rules, Document.Fits rule)
    (supply : Supply) (outside : σ) :
    (start config engine.disk supply outside).1 = .ok () ∧
      (start config engine.disk supply outside).2.rules = engine.rules := by
  have opened : AsOpened config location engine := by
    rcases kept.document with whole | opened
    · have all : engine.rules = engine.rules.filter Rule.isValid :=
        (List.filter_eq_self.mpr kept.valid).symm
      rw [AsOpened, Document.load_fst, Document.readText?_of_read? whole, Option.bind_some,
        Document.parse?_text kept.legible fits]
      exact all
    · exact opened
  cases loaded : (Document.load location engine.disk).1 with
  | some stored =>
    rw [AsOpened, loaded] at opened
    rw [start_of_stored place loaded, opened]
    exact ⟨rfl, rfl⟩
  | none =>
    rw [AsOpened, loaded] at opened
    obtain ⟨bare, none⟩ := opened
    rw [start_of_nothing place loaded, bare, none]
    exact ⟨rfl, rfl⟩

/-- An engine that opens again with the rules of another one shows that all of them leave room for
their document. -/
theorem fits_of_same (place : config.storage = some location) (last : Engine σ) {supply : Supply}
    {outside : σ} (reopened : (start config last.disk supply outside).1 = .ok () ∧
      (start config last.disk supply outside).2.rules = last.rules) :
    ∀ rule ∈ last.rules, Document.Fits rule := by
  rw [← reopened.2]
  exact fits_start place reopened.1

/-- An engine that stores its rules, and has run commands that texts and clocks can give, with
every execution saved, opens again with the same rules in the same order, equal in all of their
fields, exactly if each of them leaves room for the array that the document puts around them. -/
theorem restart_keeps_registry_iff {collaborators : Collaborators σ}
    (detached : collaborators.Detached) (config : EngineConfig) (location : Location)
    (place : config.storage = some location) (disk : Disk) (supply : Supply) (outside : σ)
    (clock : ∀ look, (supply.clock look).instant.IsTime)
    (opened : (start config disk supply outside).1 = .ok ()) (commands : List Command)
    (accepted : ∀ command ∈ commands, command.Accepted)
    (saved : RunAllSaves collaborators commands (start config disk supply outside).2)
    (supplyThen : Supply) (outsideThen : σ) :
    let last := ((start config disk supply outside).2.runAll collaborators commands).2
    let again := start config last.disk supplyThen outsideThen
    (again.1 = .ok () ∧ again.2.rules = last.rules) ↔
      ∀ rule ∈ last.rules, Document.Fits rule := by
  intro last again
  have kept : Kept config location last :=
    (kept_start place clock opened).runAll detached accepted saved
  constructor
  · intro reopened
    exact fits_of_same place last reopened
  · intro fits
    exact kept.start place fits supplyThen outsideThen

/-- Lists inside one another, as many as are asked for. -/
def nest : Nat → Json
  | 0 => .null
  | depth + 1 => .array [nest depth]

/-- The text of a request for a rule that runs when a student enrols, under a condition on a value
that is nested to a depth. -/
def nestedRequest (id : String) (depth : Nat) : Json :=
  .object [("id", .string id), ("name", .string "Nested"),
    ("trigger", .object [("type", .string "event"), ("eventName", .string "student_enrolled")]),
    ("conditions", .array [.object [("field", .string "student"),
      ("operator", .string "not_equals"), ("value", nest depth)]]),
    ("actions", .array [])]

/-- The rule that such a request asks for. -/
def nested (id : String) (depth : Nat) : NewRule where
  id := some id
  name := "Nested"
  trigger := .event "student_enrolled"
  conditions := [⟨"student", .notEquals, nest depth, none⟩]

/-- An engine that keeps its rules in a folder, and begins with none. -/
def shelf : EngineConfig := (EngineConfig.persistent ["data"]).withDefaultRules false

/-- The clock of the sample engines shows a time. -/
theorem isTime_welcoming : ∀ look, (welcoming.supply.clock look).instant.IsTime := by
  have minute : (Instant.mk 60 0).IsTime := ⟨by decide, by decide, by decide, by decide⟩
  exact fun _ => minute

/-- The sample engine after a run of commands. -/
def shelved (commands : List Command) : Engine Unit :=
  ((start shelf {} welcoming.supply ()).2.runAll .logging commands).2

/-- A rule is registered, and a student enrols. -/
def enrolling : List Command :=
  [.add (nested "shallow" 3), .trigger "student_enrolled" .null]

/-- A rule that is nested as deep as a request may be is registered after one that is not. -/
def deepening : List Command := [.add (nested "shallow" 3), .add (nested "deep" 124)]

/-- A sample request within the limit is accepted if it is read. -/
theorem accepted_nested {id : String} {depth : Nat}
    (room : (nestedRequest id depth).depth ≤ Raw.nestingLimit)
    (read : (NewRule.read (.ofValue (nestedRequest id depth))).toOption = some (nested id depth)) :
    Command.Accepted (.add (nested id depth)) := by
  refine ⟨(nestedRequest id depth).prettyText, .inl ?_⟩
  rw [Raw.ofText_prettyText room]
  cases outcome : NewRule.read (.ofValue (nestedRequest id depth)) with
  | error refusal =>
    rw [outcome] at read
    cases read
  | ok found =>
    rw [outcome] at read
    exact congrArg Except.ok (Option.some.inj read)

/-- A rule is registered and carried out once, and the engine opens again with that execution
counted. -/
theorem enrolment_survives_restart :
    let last := shelved enrolling
    let again := start shelf last.disk welcoming.supply ()
    last.rules.map Rule.executionCount = [1] ∧ again.1 = .ok () ∧ again.2.rules = last.rules := by
  have accepted : ∀ command ∈ enrolling, Command.Accepted command := by
    intro command member
    simp only [enrolling, List.mem_cons, List.not_mem_nil, or_false] at member
    rcases member with rfl | rfl
    · exact accepted_nested (by decide +kernel) (by decide +kernel)
    · trivial
  have opened : (start shelf {} welcoming.supply ()).1 = .ok () := by decide +kernel
  have saved : RunAllSaves .logging enrolling (start shelf {} welcoming.supply ()).2 := by
    decide +kernel
  have restart := restart_keeps_registry_iff Collaborators.logging_detached shelf
    ["data", "rules.json"] rfl {} welcoming.supply () isTime_welcoming opened _ accepted saved
    welcoming.supply ()
  have fits : ∀ rule ∈ (shelved enrolling).rules, Document.Fits rule := by decide +kernel
  have counted : (shelved enrolling).rules.map Rule.executionCount = [1] := by decide +kernel
  unfold shelved at fits counted ⊢
  exact ⟨counted, restart.mpr fits⟩

/-- A rule that is nested as deep as a request may be is accepted, and no save fails; but the
engine does not open again with the rules it has. -/
theorem deep_rule_is_lost :
    let opened := start shelf {} welcoming.supply ()
    let last := shelved deepening
    let again := start shelf last.disk welcoming.supply ()
    opened.1 = .ok () ∧ (∀ command ∈ deepening, command.Accepted) ∧
      RunAllSaves .logging deepening opened.2 ∧
      (opened.2.runAll .logging deepening).1 = [.ok (.added "shallow"), .ok (.added "deep")] ∧
      ¬(again.1 = .ok () ∧ again.2.rules = last.rules) := by
  have opened : (start shelf {} welcoming.supply ()).1 = .ok () := by decide +kernel
  have accepted : ∀ command ∈ deepening, command.Accepted := by
    intro command member
    simp only [deepening, List.mem_cons, List.not_mem_nil, or_false] at member
    rcases member with rfl | rfl
    · exact accepted_nested (by decide +kernel) (by decide +kernel)
    · exact accepted_nested (by decide +kernel) (by decide +kernel)
  have answers : ((start shelf {} welcoming.supply ()).2.runAll .logging deepening).1 =
      [.ok (.added "shallow"), .ok (.added "deep")] := by decide +kernel
  have deep : ¬∀ rule ∈ (shelved deepening).rules, Document.Fits rule := by decide +kernel
  have place : shelf.storage = some ["data", "rules.json"] := rfl
  exact ⟨opened, accepted, ⟨trivial, trivial, trivial⟩, answers,
    fun reopened => deep (fits_of_same place _ reopened)⟩

end Engine
end CampusRules
