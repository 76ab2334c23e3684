import CampusRules.Engine.Command

/-!
# Operations by their sections

Every operation on an engine is a row of sections, and what is true of any row of
sections is true of every operation. `Sections` asks of a relation between two states
of an engine that it holds across each kind of section, for collaborators that may
themselves do anything the relation allows. It then holds across every command and
every run of commands, however the operations branch and whenever they end early.
Carrying out actions takes only some of the kinds, which `ActionSections` asks of.
-/

namespace CampusRules

/-- Whether an event only tells how an execution is going. The others tell of changes of
the registry. -/
def Event.isProgress : Event → Bool
  | .triggered _ _ | .skipped _ | .failed _ _ => true
  | _ => false

namespace Engine

variable {σ : Type}

/-- A relation between the states of an engine before and after something that holds across
every section of carrying out actions. -/
structure ActionSections (collaborators : Collaborators σ)
    (related : Engine σ → Engine σ → Prop) : Prop where
  refl : ∀ engine, related engine engine
  trans : ∀ {first second third}, related first second → related second third →
    related first third
  action : ∀ event engine, related engine (engine.announceAction event)
  record : ∀ entry engine, related engine (engine.record entry)
  deliver : ∀ handoff engine, related engine (collaborators.deliver handoff engine).2

/-- A relation that holds across every section of an operation. Crediting an execution and
telling of it is one section. -/
structure Sections (collaborators : Collaborators σ)
    (related : Engine σ → Engine σ → Prop) : Prop
    extends ActionSections collaborators related where
  look : ∀ engine, related engine engine.look.2
  progress : ∀ (event : Event) engine, event.isProgress = true →
    related engine (engine.announce event)
  credit : ∀ id time engine, related engine
    ((engine.credit id time).2.announce (.executed id (engine.credit id time).1))
  add : ∀ new engine, related engine (engine.add new).2
  remove : ∀ id engine, related engine (engine.remove id).2
  update : ∀ id change engine, related engine (engine.update id change).2

variable {collaborators : Collaborators σ} {related : Engine σ → Engine σ → Prop}

namespace ActionSections

/-- Logging the reply to an action is a section, if anything. -/
theorem acknowledge (sections : ActionSections collaborators related) (action : Action)
    (reply : Reply) (engine : Engine σ) : related engine (engine.acknowledge action reply) := by
  cases reply with
  | done => exact sections.refl engine
  | result _ => exact sections.refl engine
  | written _ => exact sections.record _ engine

/-- An action is handed over and the reply to it is logged, or nothing is done. -/
theorem perform (sections : ActionSections collaborators related) (action : Action)
    (context : Json) (engine : Engine σ) :
    related engine (perform collaborators action context engine).2 := by
  unfold Engine.perform
  split
  · exact sections.refl engine
  · split
    · exact sections.refl engine
    · rename_i handoff _
      have delivered := sections.deliver handoff engine
      split
      · rename_i after result
        rwa [result] at delivered
      · rename_i reply after result
        rw [result] at delivered
        exact sections.trans delivered (sections.acknowledge action reply after)

/-- Actions are told of and carried out one by one. -/
theorem performFrom (sections : ActionSections collaborators related) (id : String)
    (context : Json) (actions : List Action) (index : Nat) (engine : Engine σ) :
    related engine (performFrom collaborators id context index actions engine).2 := by
  induction actions generalizing index engine with
  | nil => exact sections.refl engine
  | cons action rest inductionHypothesis =>
    have started := sections.action (.started id index action.kind) engine
    have performed := sections.trans started (sections.perform action context _)
    unfold Engine.performFrom
    dsimp only
    split
    · rename_i after result
      rw [result] at performed
      have completed := sections.trans performed (sections.action (.completed id index) after)
      exact sections.trans completed (inductionHypothesis (index + 1) _)
    · rename_i failure after result
      rw [result] at performed
      exact sections.trans performed (sections.action _ after)

end ActionSections

namespace Sections

/-- An execution tells that it begins, carries out the actions, and tells how it ended;
only at its very end the registry is touched. -/
theorem carryOut (sections : Sections collaborators related) (rule : Rule) (context : Json)
    (time : Instant) (reason : String) (engine : Engine σ) :
    related engine (carryOut collaborators rule context time reason engine).2 := by
  have triggered := sections.progress (.triggered rule.id reason) engine rfl
  unfold Engine.carryOut
  dsimp only
  split
  · exact sections.trans triggered (sections.progress _ _ rfl)
  · have performed := sections.trans triggered
      (sections.performFrom rule.id context rule.actions 0 _)
    unfold Engine.performAll
    split
    · rename_i failure after result
      rw [result] at performed
      exact sections.trans performed (sections.progress _ after rfl)
    · rename_i after result
      rw [result] at performed
      exact sections.trans performed (sections.credit rule.id time after)

/-- A rule that is gone or inactive is passed over. -/
theorem attempt (sections : Sections collaborators related) (id : String) (context : Json)
    (time : Instant) (reason : String) (engine : Engine σ) :
    related engine (attempt collaborators id context time reason engine).2 := by
  unfold Engine.attempt
  split
  · exact sections.refl engine
  · exact sections.carryOut _ context time reason engine

/-- A rule is carried out by hand at the time that the clock shows. -/
theorem execute (sections : Sections collaborators related) (id : String) (context : Json)
    (engine : Engine σ) : related engine (engine.execute collaborators id context).2 :=
  sections.trans (sections.look engine) (sections.attempt id context _ _ _)

/-- Rules are carried out one after the other, each at the time that the clock shows. -/
theorem triggerEach (sections : Sections collaborators related) (context : Json)
    (reason : String) (ids : List String) (engine : Engine σ) :
    related engine (triggerEach collaborators context reason ids engine).2 := by
  induction ids generalizing engine with
  | nil => exact sections.refl engine
  | cons id rest inductionHypothesis =>
    have attempted := sections.trans (sections.look engine)
      (sections.attempt id context engine.look.1.instant reason _)
    exact sections.trans attempted (inductionHypothesis _)

/-- Rules are carried out one after the other at one time. -/
theorem runEach (sections : Sections collaborators related) (context : Json) (time : Instant)
    (ids : List String) (engine : Engine σ) :
    related engine (runEach collaborators context time ids engine).2 := by
  induction ids generalizing engine with
  | nil => exact sections.refl engine
  | cons id rest inductionHypothesis =>
    have attempted := sections.attempt id context time "schedule" engine
    exact sections.trans attempted (inductionHypothesis _)

/-- Every command is a row of sections. -/
theorem run (sections : Sections collaborators related) (command : Command) (engine : Engine σ) :
    related engine (engine.run collaborators command).2 := by
  cases command with
  | add new => exact sections.add new engine
  | remove id => exact sections.remove id engine
  | update id change => exact sections.update id change engine
  | get id => exact sections.refl engine
  | rules => exact sections.refl engine
  | activeRules => exact sections.refl engine
  | execute id context => exact sections.execute id context engine
  | trigger event context => exact sections.triggerEach context _ _ engine
  | schedule now =>
    cases now with
    | none => exact sections.trans (sections.look engine) (sections.runEach _ _ _ _)
    | some reading => exact sections.runEach _ _ _ engine

/-- A run of commands is a row of sections. -/
theorem runAll (sections : Sections collaborators related) (commands : List Command)
    (engine : Engine σ) : related engine (engine.runAll collaborators commands).2 := by
  induction commands generalizing engine with
  | nil => exact sections.refl engine
  | cons command rest inductionHypothesis =>
    exact sections.trans (sections.run command engine) (inductionHypothesis _)

end Sections
end Engine
end CampusRules
