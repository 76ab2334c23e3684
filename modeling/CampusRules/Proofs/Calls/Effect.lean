import CampusRules.Proofs.Calls.Step
import CampusRules.Proofs.Engine.Collaboration

/-!
# What a section does to the registry and its document

With detached collaborators, a section of a call does one of a few things to what is stored. It
commits an amendment, in memory and on the disk at once, or is refused. It counts an execution
in memory only; the call then owes a save, which it makes in two more sections: one reads the
registry, and one writes what was read. Every other section leaves both alone.

`Call.advance_effect` says so once for all calls. What is proved about registry and document in
any order of the callers rests on it.
-/

namespace CampusRules

/-- The amendment that a deed makes, if it makes any. -/
def Deed.amendment? : Deed → Option Amendment
  | .amended amendment => some amendment
  | _ => none

/-- The outcome of the write that a deed is, if it is one. -/
def Deed.write? : Deed → Option (Except Failure Unit)
  | .saved outcome => some outcome
  | _ => none

/-- The amendments among deeds, in order. -/
def Deed.amendments (deeds : List Deed) : List Amendment := deeds.filterMap Deed.amendment?

/-- The outcomes of the writes among deeds, in order. -/
def Deed.writes (deeds : List Deed) : List (Except Failure Unit) := deeds.filterMap Deed.write?

/-- The amendments of deeds in a row. -/
theorem Deed.amendments_append (first second : List Deed) :
    Deed.amendments (first ++ second) = Deed.amendments first ++ Deed.amendments second :=
  List.filterMap_append

/-- The outcomes of writes in a row. -/
theorem Deed.writes_append (first second : List Deed) :
    Deed.writes (first ++ second) = Deed.writes first ++ Deed.writes second :=
  List.filterMap_append

/-- What a call owes to the document: nothing, that the registry is read to be saved, or that
what was read is written. -/
inductive Debt where
  | none
  | read
  | write (snapshot : List Rule)
  deriving DecidableEq

/-- What is owed at a stage of a turn. -/
def Stage.debt : Stage → Debt
  | .counted _ _ => .read
  | .writing _ _ snapshot => .write snapshot
  | _ => .none

/-- What a call owes to the document. -/
def Call.debt : Call → Debt
  | .carrying round => round.stage.debt
  | _ => .none

variable {σ : Type}

/-- The document of an engine holds a list of rules, if it stores rules at all. -/
def Engine.Holds (rules : List Rule) (engine : Engine σ) : Prop :=
  ∀ location, engine.storage = some location →
    engine.disk.read? location = some (Document.text rules).toUTF8

/-- The document of an engine is what it was. -/
def Engine.HoldsStill (before after : Engine σ) : Prop :=
  ∀ location, before.storage = some location →
    after.disk.node? location = before.disk.node? location

/-- A document that is what it was holds what it held. -/
theorem Engine.HoldsStill.holds {before after : Engine σ} {rules : List Rule}
    (still : before.HoldsStill after) (storage : after.storage = before.storage)
    (holds : before.Holds rules) : after.Holds rules := by
  intro location stored
  have there : before.storage = some location := storage ▸ stored
  simpa only [Disk.read?, still location there] using holds location there

/-- What a section may do to the registry and to its document, by what its call owes before and
after. Where the document is never changes. -/
inductive Effect (found : Engine σ) (call : Call) : Advance σ → Prop where
  | passes {deeds : List Deed} {after : Call} {left : Engine σ} (before : call.debt = .none)
      (owed : after.debt = .none) (amendments : Deed.amendments deeds = [])
      (writes : Deed.writes deeds = []) (rules : left.rules = found.rules)
      (storage : left.storage = found.storage) (document : found.HoldsStill left) :
      Effect found call (deeds, after, left)
  | commits {amendment : Amendment} {after : Call} {left : Engine σ} (before : call.debt = .none)
      (owed : after.debt = .none) (locked : call.needsLock found = true)
      (rules : left.rules = amendment.apply found.rules) (storage : left.storage = found.storage)
      (document : left.Holds left.rules) :
      Effect found call ([.amended amendment, .saved (.ok ())], after, left)
  | fails {reason : String} {after : Call} {left : Engine σ} (before : call.debt = .none)
      (owed : after.debt = .none) (rules : left.rules = found.rules)
      (storage : left.storage = found.storage) (document : found.HoldsStill left) :
      Effect found call ([.saved (.error (.storage reason))], after, left)
  | counts {id : String} {time : Instant} {after : Call} {left : Engine σ}
      (before : call.debt = .none)
      (owed : after.debt = .read ∨ after.debt = .none ∧ left.rules = found.rules)
      (rules : left.rules = (Amendment.count id time).apply found.rules)
      (storage : left.storage = found.storage) (document : found.HoldsStill left) :
      Effect found call ([.amended (.count id time)], after, left)
  | reads {after : Call} (before : call.debt = .read)
      (owed : after.debt = .write found.rules ∧ call.needsLock found = true ∨
        after.debt = .none ∧ found.storage = none) :
      Effect found call ([], after, found)
  | writes {snapshot : List Rule} {outcome : Except Failure Unit} {after : Call} {left : Engine σ}
      (before : call.debt = .write snapshot) (owed : after.debt = .none)
      (rules : left.rules = found.rules) (storage : left.storage = found.storage)
      (document : outcome = .ok () → left.Holds snapshot) :
      Effect found call ([.saved outcome], after, left)

variable {collaborators : Collaborators σ}

namespace Effect

open Engine

/-- A section that leaves registry and disk alone passes. -/
theorem of_same {found left : Engine σ} {call after : Call} {deeds : List Deed}
    (before : call.debt = .none) (owed : after.debt = .none)
    (amendments : Deed.amendments deeds = []) (writes : Deed.writes deeds = [])
    (rules : left.rules = found.rules) (storage : left.storage = found.storage)
    (disk : left.disk = found.disk) : Effect found call (deeds, after, left) :=
  .passes before owed amendments writes rules storage fun location _ => by rw [disk]

/-- A change of the registry that fails on the disk, or is refused before that. -/
theorem of_failed {command : Command} {failure : Failure} {found after : Engine σ}
    {events : List Event} (untouched : Untouched found after) :
    Effect found (.asked command) (command.deeds found (.error failure),
      .telling events (.error failure), { after with events := found.events }) := by
  by_cases disk : ∃ reason, failure = .storage reason
  · obtain ⟨reason, rfl⟩ := disk
    have tried : command.deeds found (.error (.storage reason)) =
        [.saved (.error (.storage reason))] := by cases command <;> rfl
    rw [tried]
    exact .fails rfl rfl untouched.rules untouched.storage untouched.document
  · have refused : command.deeds found (.error failure) = [] := by
      cases failure with
      | storage reason => exact (disk ⟨reason, rfl⟩).elim
      | _ => cases command <;> rfl
    rw [refused]
    exact .passes rfl rfl rfl rfl untouched.rules untouched.storage untouched.document

/-- A change of the registry that is committed. -/
theorem of_committed {command : Command} {answer : Answer} {found after : Engine σ}
    (amendment : Amendment) {event : Event} {events : List Event}
    (locked : (Call.asked command).needsLock found = true)
    (committed : Committed (amendment.apply found.rules) event found after)
    (deeds : command.deeds found (.ok answer) = [.amended amendment, .saved (.ok ())]) :
    Effect found (.asked command) (command.deeds found (.ok answer),
      .telling events (.ok answer), { after with events := found.events }) := by
  rw [deeds]
  refine .commits rfl rfl locked committed.rules committed.storage ?_
  intro location stored
  have whole := committed.document location (committed.storage ▸ stored)
  rw [← committed.rules] at whole
  exact whole

/-- A command that carries out no rule is refused, or fails, or commits one amendment. -/
theorem of_quiet {command : Command} (quiet : command.carriesOut = false) (found : Engine σ) :
    Effect found (.asked command) (Call.start collaborators command found) := by
  cases command with
  | add new =>
    rcases outcome : found.add new with ⟨result, after⟩
    have possible := add_outcome new found
    rw [outcome] at possible
    simp only [Call.start, run, answered, outcome]
    rcases possible with ⟨failure, rfl, untouched⟩ | ⟨rfl, committed⟩
    · exact of_failed untouched
    · exact of_committed (.append (found.make new).1) rfl committed rfl
  | remove id =>
    rcases outcome : found.remove id with ⟨result, after⟩
    have possible := remove_outcome id found
    rw [outcome] at possible
    simp only [Call.start, run, answered, outcome]
    rcases possible with ⟨rfl, _, untouched⟩ | ⟨failure, rfl, untouched⟩ |
      ⟨rfl, index, position, committed⟩
    · exact .passes rfl rfl rfl rfl untouched.rules untouched.storage untouched.document
    · exact of_failed untouched
    · rw [Amendment.eraseIdx_eq_eraseP position] at committed
      exact of_committed (.erase id) rfl committed rfl
  | update id change =>
    rcases outcome : found.update id change with ⟨result, after⟩
    have possible := update_outcome id change found
    rw [outcome] at possible
    simp only [Call.start, run, answered, outcome]
    rcases possible with ⟨rfl, _, untouched⟩ | ⟨failure, rfl, untouched⟩ |
      ⟨rfl, index, rule, position, there, _, _, committed⟩
    · exact .passes rfl rfl rfl rfl untouched.rules untouched.storage untouched.document
    · exact of_failed untouched
    · rw [← modify_of_getElem? found.rules (·.merge change) index rule there,
        Amendment.modify_eq_alterFirst position] at committed
      exact of_committed (.merge id change) rfl committed rfl
  | get | rules | activeRules => exact of_same rfl rfl rfl rfl rfl rfl rfl
  | execute | trigger | schedule => cases quiet

/-- A section never changes where rules are stored. -/
theorem storage {found : Engine σ} {call : Call} {advance : Advance σ}
    (effect : Effect found call advance) : advance.2.2.storage = found.storage := by
  cases effect with
  | reads => rfl
  | passes _ _ _ _ _ same | commits _ _ _ _ same | fails _ _ _ same | counts _ _ _ same
  | writes _ _ _ same => exact same

/-- A section makes the registry what its amendments make of it. -/
theorem rules {found : Engine σ} {call : Call} {advance : Advance σ}
    (effect : Effect found call advance) :
    advance.2.2.rules = (Deed.amendments advance.1).foldl Amendment.apply found.rules := by
  cases effect with
  | passes _ _ amendments _ rules => rw [amendments, rules]; rfl
  | commits _ _ _ rules | counts _ _ rules => exact rules
  | fails _ _ rules | writes _ _ rules => exact rules
  | reads => rfl

end Effect

namespace Round

open Engine

variable {round : Round} {found : Engine σ}

/-- Carrying out an action leaves registry and disk alone, and its messages are neither
amendments nor writes. -/
theorem effect_act (detached : collaborators.Detached) {action : Action} {after : Call}
    {started acted left : Engine σ} {outcome : Except Failure Unit}
    (performed : perform collaborators action round.occasion.context started = (outcome, acted))
    (before : (Call.carrying round).debt = .none) (owed : after.debt = .none)
    (rules : started.rules = found.rules ∧ left.rules = acted.rules)
    (storage : started.storage = found.storage ∧ left.storage = acted.storage)
    (disk : started.disk = found.disk ∧ left.disk = acted.disk) :
    Effect found (.carrying round)
      ((action.message? collaborators.assisted round.occasion.context).toList.map .handed,
        after, left) := by
  have aside := (actionSections_aside detached).perform action round.occasion.context started
  rw [performed] at aside
  obtain ⟨outside, log, actionEvents, rfl⟩ := aside
  have rules := rules.2.trans rules.1
  have storage := storage.2.trans storage.1
  have disk := disk.2.trans disk.1
  cases action.message? collaborators.assisted round.occasion.context with
  | none => exact .of_same before owed rfl rfl rules storage disk
  | some handoff => exact .of_same before owed rfl rfl rules storage disk

/-- The section that writes writes what was read. -/
theorem effect_save {snapshot : List Rule} {after : Call}
    (before : (Call.carrying round).debt = .write snapshot) (owed : after.debt = .none) :
    Effect found (.carrying round) ([.saved (found.save snapshot).1], after,
      (found.save snapshot).2) := by
  have others := save_changes_disk snapshot found
  have storage : (found.save snapshot).2.storage = found.storage := by rw [others]
  refine .writes before owed (by rw [others]) storage ?_
  intro done location stored
  rcases save_outcome snapshot found with ⟨reason, failed, _⟩ | ⟨_, whole⟩
  · rw [failed] at done
    cases done
  · exact whole location (storage ▸ stored)

/-- What a section of a round may do. -/
theorem Step.effect (detached : collaborators.Detached) {advance : Advance σ}
    (step : round.Step collaborators found advance) : Effect found (.carrying round) advance := by
  have owes {stage : Stage} (reached : round.stage = stage) :
      (Call.carrying round).debt = stage.debt := by rw [← reached]; rfl
  cases step with
  | answers stage | skips stage | begins stage | tells stage =>
    exact .of_same (owes stage) rfl rfl rfl rfl rfl rfl
  | passes stage | finds stage =>
    rw [round.occasion.moment_engine found]
    exact .of_same (owes stage) rfl rfl rfl rfl rfl rfl
  | acts stage performed | fails stage performed =>
    exact effect_act detached performed (owes stage) rfl ⟨rfl, rfl⟩ ⟨rfl, rfl⟩ ⟨rfl, rfl⟩
  | misses stage gone =>
    exact .counts (owes stage) (.inr ⟨rfl, rfl⟩) (Amendment.alterFirst_of_absent gone).symm rfl
      fun _ _ => rfl
  | counts stage => exact .counts (owes stage) (.inl rfl) rfl rfl fun _ _ => rfl
  | unstored stage storage => exact .reads (owes stage) (.inr ⟨rfl, storage⟩)
  | reads stage storage =>
    have locked : (Call.carrying round).needsLock found = true := by
      obtain ⟨_, _, _, _, _⟩ := round
      cases stage
      simp [Call.needsLock, storage]
    exact .reads (owes stage) (.inl ⟨rfl, locked⟩)
  | writes stage => exact effect_save (owes stage) rfl

end Round

/-- What a section of a call may do, if collaborators are detached. -/
theorem Call.advance_effect (detached : collaborators.Detached) (call : Call)
    (found : Engine σ) : Effect found call (call.advance collaborators found) := by
  cases call with
  | carrying round => exact (round.step collaborators found).effect detached
  | telling | answered => exact .of_same rfl rfl rfl rfl rfl rfl rfl
  | asked command =>
    by_cases carries : command.carriesOut = true
    · cases command with
      | execute | trigger => exact .of_same rfl rfl rfl rfl rfl rfl rfl
      | schedule now => cases now <;> exact .of_same rfl rfl rfl rfl rfl rfl rfl
      | _ => cases carries
    · exact .of_quiet (by simpa using carries) found

end CampusRules
