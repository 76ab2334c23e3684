import CampusRules.Engine.Opening
import CampusRules.Proofs.Engine.Collaboration

/-!
# An engine keeps its registry well formed

From a well-formed registry, every command leads to a well-formed registry that the
events tell of: rules stay with their identity and their record of executions unless an
event says otherwise. Neither failing collaborators nor a failing disk matter. Even
collaborators that turn to the engine themselves do not, as long as commands are all
they give it.

An engine that opens with nothing stored begins with a well-formed registry, so it has
one for good.
-/

namespace CampusRules

namespace Event

/-- An event that tells of progress tells of no execution. -/
theorem executions_of_isProgress (id : String) {event : Event}
    (progress : event.isProgress = true) :
    executions id [event] = 0 := by
  cases event <;> first | rfl | cases progress

end Event

namespace Registry

/-- An event that tells of progress removes no rule. -/
theorem stays_of_isProgress (rule : Rule) {event : Event} (progress : event.isProgress = true) :
    stays [event] rule = true := by
  cases event <;> first | rfl | cases progress

end Registry

namespace Engine

open Registry

variable {σ : Type}

/-- Whatever happens between two states of an engine keeps its registry well formed, and
the events that are sent tell what becomes of the rules. -/
def Evolves (before after : Engine σ) : Prop :=
  WellFormed before.rules →
    ∃ sent, after.events = before.events ++ sent ∧ Evolution sent before.rules after.rules

/-- What leaves rules and events alone is no matter. -/
theorem Evolves.of_same {before after : Engine σ} (rules : after.rules = before.rules)
    (events : after.events = before.events) : Evolves before after := by
  intro wellFormed
  refine ⟨[], by simpa using events, ?_⟩
  rw [rules]
  exact Evolution.refl wellFormed

/-- Two things in a row are one. -/
theorem Evolves.trans {first second third : Engine σ} (earlier : Evolves first second)
    (later : Evolves second third) : Evolves first third := by
  intro wellFormed
  obtain ⟨sent, told, evolution⟩ := earlier wellFormed
  obtain ⟨more, toldLater, continued⟩ := later evolution.wellFormed
  exact ⟨sent ++ more, by rw [toldLater, told, List.append_assoc], evolution.trans continued⟩

/-- Telling of progress changes no rule. -/
theorem evolves_progress (event : Event) (engine : Engine σ) (progress : event.isProgress = true) :
    Evolves engine (engine.announce event) := by
  intro wellFormed
  exact ⟨[event], rfl, Evolution.of_unchanged wellFormed
    (fun rule _ => stays_of_isProgress rule progress)
    (fun rule _ => Event.executions_of_isProgress rule.id progress)⟩

/-- What an operation on the registry leaves untouched has not changed. -/
theorem Untouched.evolves {before after : Engine σ} (untouched : Untouched before after) :
    Evolves before after :=
  .of_same untouched.rules untouched.events

/-- A rule that is found nowhere has an identifier of its own. -/
theorem ne_of_find?_none {engine : Engine σ} {id : String} (missing : engine.find? id = none) :
    ∀ rule ∈ engine.rules, rule.id ≠ id := by
  intro rule member
  simpa using List.find?_eq_none.mp missing rule member

/-- Only a valid rule under a new identifier is accepted. -/
theorem insert_accepted {rule : Rule} {engine : Engine σ} {id : String}
    (accepted : (engine.insert rule).1 = .ok id) :
    rule.isValid = true ∧ ∀ other ∈ engine.rules, other.id ≠ rule.id := by
  unfold insert at accepted
  split at accepted
  · cases accepted
  · rename_i flawless
    split at accepted
    · cases accepted
    · rename_i missing
      exact ⟨by simp [Rule.isValid, flawless],
        ne_of_find?_none (by simpa using missing)⟩

/-- Whoever asks for a rule, it gets an identifier that is not empty. -/
theorem id_ofNew_ne (new : NewRule) (supply : Supply) (now : Instant) :
    (Rule.ofNew new supply.fresh now).id ≠ "" := by
  have fresh : supply.fresh ≠ "" := by
    intro empty
    have spelled := congrArg String.toList empty
    simp [Supply.fresh, Rule.idPrefix] at spelled
  cases named : new.id.filter (· != "") with
  | none => simpa [Rule.ofNew, named] using fresh
  | some id =>
    have given := (Option.filter_eq_some_iff.mp named).2
    simpa [Rule.ofNew, named] using given

/-- Adding a rule is an evolution. -/
theorem evolves_add (new : NewRule) (engine : Engine σ) : Evolves engine (engine.add new).2 := by
  rcases add_outcome new engine with ⟨_, _, untouched⟩ | ⟨done, committed⟩
  · exact untouched.evolves
  · intro wellFormed
    obtain ⟨valid, unlike⟩ := insert_accepted done
    refine ⟨_, committed.events, ?_⟩
    rw [committed.rules]
    exact Evolution.add wellFormed unlike (id_ofNew_ne new _ _) valid rfl

/-- Removing a rule is an evolution. -/
theorem evolves_remove (id : String) (engine : Engine σ) :
    Evolves engine (engine.remove id).2 := by
  rcases remove_outcome id engine with
    ⟨_, _, untouched⟩ | ⟨_, _, untouched⟩ | ⟨_, index, position, committed⟩
  · exact untouched.evolves
  · exact untouched.evolves
  · intro wellFormed
    refine ⟨_, committed.events, ?_⟩
    rw [committed.rules, eraseIdx_findIdx _ _ _ wellFormed.distinct position]
    exact Evolution.remove wellFormed id

/-- Setting the rule at the position of an identifier adjusts the rule that has it. -/
theorem set_eq_adjust {engine : Engine σ} {id : String} {index : Nat} {rule : Rule}
    (distinct : Distinct engine.rules) (position : engine.position? id = some index)
    (there : engine.rules[index]? = some rule) (change : Rule → Rule) :
    engine.rules.set index (change rule) = adjust id change engine.rules := by
  rw [← modify_of_getElem? _ change _ _ there]
  exact modify_findIdx _ _ _ _ distinct position

/-- Changing a rule is an evolution, whatever the change carries. -/
theorem evolves_update (id : String) (change : RuleChange) (engine : Engine σ) :
    Evolves engine (engine.update id change).2 := by
  rcases update_outcome id change engine with
    ⟨_, _, untouched⟩ | ⟨_, _, untouched⟩ |
    ⟨_, index, rule, position, there, named, flawless, committed⟩
  · exact untouched.evolves
  · exact untouched.evolves
  · intro wellFormed
    have adjusted := set_eq_adjust wellFormed.distinct position there (·.merge change)
    have only : ∀ other ∈ engine.rules, other.id = id → other = rule := by
      intro other member same
      exact wellFormed.distinct.unique member (List.mem_of_getElem? there)
        (same.trans named.symm)
    refine ⟨_, committed.events, ?_⟩
    rw [committed.rules, adjusted]
    apply Evolution.update wellFormed
    intro other member same
    rw [only other member same, Rule.isValid, flawless]
    rfl

/-- Crediting an execution and telling of it is an evolution. -/
theorem evolves_credit (id : String) (time : Instant) (engine : Engine σ) :
    Evolves engine
      ((engine.credit id time).2.announce (.executed id (engine.credit id time).1)) := by
  intro wellFormed
  have rules := credit_rules id time engine wellFormed.distinct
  obtain ⟨_, _, changed⟩ := credit_changes id time engine
  refine ⟨[.executed id (engine.credit id time).1], by simp [announce, changed], ?_⟩
  simp only [announce, rules]
  exact Evolution.execute wellFormed id time _

/-- Where collaborators let a registry evolve, all sections of an operation do. -/
theorem sections_evolves {collaborators : Collaborators σ}
    (deliver : ∀ handoff engine, Evolves engine (collaborators.deliver handoff engine).2) :
    Sections collaborators Evolves where
  refl _ := .of_same rfl rfl
  trans := .trans
  look _ := .of_same rfl rfl
  progress := evolves_progress
  action _ _ := .of_same rfl rfl
  record _ _ := .of_same rfl rfl
  deliver := deliver
  credit := evolves_credit
  add := evolves_add
  remove := evolves_remove
  update := evolves_update

/-- All that bound collaborators do is an evolution. A command that they give meets bound
collaborators again, so the commands inside it have been looked at before. -/
theorem Reaches.evolves {before after : Engine σ} (reaches : Reaches before after) :
    Evolves before after := by
  induction reaches with
  | aside rules events => exact .of_same rules events
  | trans _ _ earlier later => exact earlier.trans later
  | command collaborators _ command engine inductionHypothesis =>
    exact (sections_evolves inductionHypothesis).run command engine

/-- With bound collaborators, all sections of an operation are evolutions. -/
theorem sections_of_bound {collaborators : Collaborators σ} (bound : collaborators.Bound) :
    Sections collaborators Evolves :=
  sections_evolves fun handoff engine => (bound handoff engine).evolves

/-- A rule is one that was asked for, at some time and with some supply of identifiers. -/
def IsMade (new : NewRule) (rule : Rule) : Prop :=
  ∃ (supply : Supply) (now : Instant), rule = Rule.ofNew new supply.fresh now

/-- Rules that are made one after the other are what was asked for one after the other. -/
theorem makeAll_made (requests : List NewRule) (engine : Engine σ) :
    List.Forall₂ IsMade requests (engine.makeAll requests).1 := by
  induction requests generalizing engine with
  | nil => exact .nil
  | cons new rest inductionHypothesis =>
    exact .cons ⟨_, _, make_rule new engine⟩ (inductionHypothesis _)

/-- Each of the rules that are made was asked for. -/
theorem made_of_mem {requests : List NewRule} {rules : List Rule}
    (made : List.Forall₂ IsMade requests rules) {rule : Rule} (member : rule ∈ rules) :
    ∃ new ∈ requests, IsMade new rule := by
  obtain ⟨index, inside, rfl⟩ := List.getElem_of_mem member
  have shorter : index < requests.length := made.length_eq ▸ inside
  exact ⟨requests[index], List.getElem_mem shorter, made.get shorter inside⟩

/-- Making rules leaves the registry alone. -/
theorem makeAll_rules (requests : List NewRule) (engine : Engine σ) :
    (engine.makeAll requests).2.rules = engine.rules := by
  induction requests generalizing engine with
  | nil => rfl
  | cons new rest inductionHypothesis => exact inductionHypothesis _

/-- A rule that names its identifier gets that one. -/
theorem id_ofNew_of_isNamed {new : NewRule} (named : new.isNamed = true) (fresh : String)
    (now : Instant) : some (Rule.ofNew new fresh now).id = new.id := by
  cases given : new.id with
  | none => simp [NewRule.isNamed, given] at named
  | some id =>
    have filled : id ≠ "" := by simpa [NewRule.isNamed, given] using named
    simp [Rule.ofNew, given, Option.filter, filled]

/-- Rules that name identifiers of their own and have no flaw make a well-formed registry. -/
theorem wellFormed_of_made {requests : List NewRule} {rules : List Rule}
    (made : List.Forall₂ IsMade requests rules) (distinct : (requests.map NewRule.id).Nodup)
    (named : ∀ new ∈ requests, new.isNamed = true)
    (valid : ∀ new ∈ requests, (Rule.ofNew new "" ⟨0, 0⟩).isValid = true) : WellFormed rules := by
  have ids : (rules.map Rule.id).map some = requests.map NewRule.id := by
    induction made with
    | nil => rfl
    | cons head _ inductionHypothesis =>
      obtain ⟨supply, now, rfl⟩ := head
      have rest := inductionHypothesis (List.nodup_cons.mp distinct).2
        (fun new member => named new (List.mem_cons_of_mem _ member))
        (fun new member => valid new (List.mem_cons_of_mem _ member))
      simp only [List.map_cons, rest, id_ofNew_of_isNamed (named _ List.mem_cons_self)]
  refine ⟨(ids ▸ distinct).of_map some, ?_, ?_, ?_⟩
  · intro rule member
    obtain ⟨new, _, supply, now, rfl⟩ := made_of_mem made member
    exact id_ofNew_ne new supply now
  · intro rule member
    obtain ⟨new, asked, supply, now, rfl⟩ := made_of_mem made member
    exact valid new asked
  · intro rule member counted
    obtain ⟨new, _, supply, now, rfl⟩ := made_of_mem made member
    exact absurd counted (UInt64.lt_irrefl 0)

/-- The default rules make a well-formed registry. -/
theorem wellFormed_defaults (engine : Engine σ) :
    WellFormed (engine.makeAll DefaultRules.all).1 := by
  apply wellFormed_of_made (makeAll_made _ engine)
  · decide +kernel
  · decide +kernel
  · decide +kernel

/-- An engine that opens with nothing stored begins with no rules or with the default
rules. -/
theorem wellFormed_start (config : EngineConfig) (disk : Disk) (supply : Supply) (outside : σ)
    (nothing : ∀ location, config.storage = some location →
      (Document.load location disk).1 = none) :
    WellFormed (start config disk supply outside).2.rules := by
  let bare : Engine σ := { storage := config.storage, disk, supply, outside }
  have unread : bare.stored?.1 = none ∧ bare.stored?.2.rules = [] := by
    cases place : config.storage with
    | none => simp [stored?, bare, place]
    | some location => simp [stored?, bare, place, nothing location place]
  rcases looked : bare.stored? with ⟨rules, loaded⟩
  rw [looked] at unread
  obtain ⟨rfl, empty⟩ : rules = none ∧ loaded.rules = [] := unread
  unfold start
  simp only [bare] at looked
  simp only [looked]
  split
  · rcases committed : (loaded.makeAll DefaultRules.all).2.save
        (loaded.makeAll DefaultRules.all).1 with ⟨outcome, saved⟩
    have others := save_changes_disk (loaded.makeAll DefaultRules.all).1
      (loaded.makeAll DefaultRules.all).2
    cases outcome with
    | ok _ =>
      simp only [commit, committed]
      exact wellFormed_defaults loaded
    | error _ =>
      rw [committed] at others
      simp only [commit, committed, others, makeAll_rules, empty]
      exact .nil
  · simp only [empty]
    exact .nil

/-- Every command leads from a well-formed registry to a well-formed one that the events tell
of, whatever collaborators and disk do; a rule that stays keeps its identity, its place and
its record but for the executions that were told, and these are the executions that the
command reports. An engine that opens with nothing stored has a well-formed registry after
any run of commands. -/
theorem registry_stays_well_formed (collaborators : Collaborators σ)
    (bound : collaborators.Bound) :
    (∀ (command : Command) (engine : Engine σ), WellFormed engine.rules →
      ∃ sent, (engine.run collaborators command).2.events = engine.events ++ sent ∧
        Evolution sent engine.rules (engine.run collaborators command).2.rules ∧
        (collaborators.Detached ∨ command.carriesOut = false →
          Event.executedIds sent = command.ran (engine.run collaborators command).1)) ∧
    ∀ (config : EngineConfig) (disk : Disk) (supply : Supply) (outside : σ)
      (commands : List Command),
      (∀ location, config.storage = some location → (Document.load location disk).1 = none) →
      WellFormed
        ((start config disk supply outside).2.runAll collaborators commands).2.rules := by
  have sections := sections_of_bound bound
  constructor
  · intro command engine wellFormed
    obtain ⟨sent, told, evolution⟩ := sections.run command engine wellFormed
    refine ⟨sent, told, evolution, ?_⟩
    have reported : Tells (command.ran (engine.run collaborators command).1) engine
          (engine.run collaborators command).2 → Event.executedIds sent =
        command.ran (engine.run collaborators command).1 := by
      rintro ⟨others, toldToo, same⟩
      rw [told] at toldToo
      rw [← same, List.append_cancel_left toldToo]
    rintro (detached | quiet)
    · exact reported (run_tells detached command engine)
    · rw [run_of_not_carriesOut quiet collaborators .logging] at reported ⊢
      exact reported (run_tells Collaborators.logging_detached command engine)
  · intro config disk supply outside commands nothing
    have opened := wellFormed_start config disk supply outside nothing
    obtain ⟨_, _, evolution⟩ := sections.runAll commands _ opened
    exact evolution.wellFormed

/-- A rule that welcomes whoever enrols. -/
def welcome : Rule where
  id := "welcome"
  name := "Welcome"
  description := ""
  trigger := .event "student_enrolled"
  conditions := []
  actions := [⟨.generateReport, [("type", .string "welcome")]⟩]
  isActive := true
  createdAt := ⟨0, 0⟩
  lastExecuted := none
  executionCount := 0

/-- An engine that knows no rule but the welcome, a minute after the epoch. -/
def welcoming : Engine Unit where
  rules := [welcome]
  supply := ⟨fun _ => ⟨⟨60, 0⟩, 0⟩, fun _ => "0", 0, 0⟩
  outside := ()

/-- One rule with a name and an action makes a well-formed registry. -/
theorem wellFormed_welcoming : WellFormed welcoming.rules where
  distinct := List.nodup_singleton _
  named := by decide +kernel
  valid := by decide +kernel
  stamped := by decide +kernel

/-- A student enrols, at an engine that welcomes and at one that opens with the default
rules. -/
theorem welcome_stays_well_formed :
    let enrolment := Command.trigger "student_enrolled" .null
    (∃ sent, (welcoming.run .logging enrolment).2.events = sent ∧
      Evolution sent [welcome] (welcoming.run .logging enrolment).2.rules ∧
      Event.executedIds sent = ["welcome"]) ∧
    WellFormed ((start .standard {} welcoming.supply ()).2.runAll .logging
      [enrolment]).2.rules := by
  intro enrolment
  obtain ⟨commands, opened⟩ := registry_stays_well_formed (Collaborators.logging (σ := Unit))
    Collaborators.logging_detached.bound
  obtain ⟨sent, told, evolution, reported⟩ := commands enrolment welcoming wellFormed_welcoming
  have ran : enrolment.ran (welcoming.run .logging enrolment).1 = ["welcome"] := by
    decide +kernel
  refine ⟨⟨sent, told, evolution, ?_⟩, opened .standard {} welcoming.supply () [enrolment] ?_⟩
  · exact (reported (.inl Collaborators.logging_detached)).trans ran
  · intro location stored
    cases stored

end Engine
end CampusRules
