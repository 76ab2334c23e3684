import CampusRules.Proofs.Engine.Transcript

/-!
# How an execution ends

An execution that nobody calls back into ends in one of four ways. The rule is not there or not
active and is passed over, or its conditions do not hold, or one of its actions fails, or all of
them succeed. How it ended is told in three places: in the answer, in the events that are sent, and
in the record of the rule. The main statement says that they always tell the same, at whichever
point the execution ends and whatever becomes of saving the record.

The record is touched at the very end alone, when nothing can fail any more but saving it. So
whatever ends an execution earlier leaves the registry and its document as they were.
-/

namespace CampusRules

/-- How an execution may end. -/
inductive ExecutionEnding where
  | passedOver
  | skipped
  | failed (failure : Failure)
  | executed (count : UInt64)

namespace ExecutionEnding

/-- Whether the rule ran. -/
def ran : ExecutionEnding → Bool
  | executed _ => true
  | passedOver | skipped | failed _ => false

/-- The events that are sent of an execution that ends in a way. -/
def events (id reason : String) : ExecutionEnding → List Event
  | passedOver => []
  | skipped => [.triggered id reason, .skipped id]
  | failed failure => [.triggered id reason, .failed id failure.message]
  | executed count => [.triggered id reason, .executed id count]

end ExecutionEnding

namespace Registry

/-- Where identifiers are distinct, one more execution of a rule is one more than this rule has. -/
theorem adjust_executed {rules : List Rule} (distinct : Distinct rules) {rule : Rule}
    (member : rule ∈ rules) (time : Instant) :
    adjust rule.id (·.executed time) rules = rules.map (fun other =>
      if other.id = rule.id then { other with
        executionCount := (rule.executed time).executionCount, lastExecuted := some time }
      else other) := by
  apply List.map_congr_left
  intro other there
  split
  · rename_i same
    rw [distinct.unique there member same]
    rfl
  · rfl

end Registry

namespace Engine

open Registry

variable {σ : Type}

/-- The count that is given when an execution of a rule is credited is one higher than before. -/
theorem credit_count {engine : Engine σ} (distinct : Distinct engine.rules) {rule : Rule}
    (member : rule ∈ engine.rules) (time : Instant) :
    (engine.credit rule.id time).1 = rule.executionCount + 1 := by
  cases position : engine.position? rule.id with
  | none => exact absurd rfl (ne_of_findIdx_none position rule member)
  | some index =>
    obtain ⟨other, there, named⟩ := position?_rule position
    obtain rfl : other = rule := distinct.unique (List.mem_of_getElem? there) member named
    simp [credit, bump, position, there, Rule.executed]

/-- After a credit, the document holds the registry as it is then, or what it held before because
saving failed. -/
theorem credit_document (id : String) (time : Instant) (engine : Engine σ) {location : Location}
    (stored : engine.storage = some location) :
    (engine.credit id time).2.disk.read? location =
        some (Document.text (engine.credit id time).2.rules).toUTF8 ∨
      (engine.credit id time).2.disk.node? location = engine.disk.node? location := by
  rw [credit_engine]
  split
  · exact .inr rfl
  · rename_i index _
    let counted := engine.rules.modify index (·.executed time)
    let bumped : Engine σ := { engine with rules := counted }
    have kept : (bumped.save counted).2.rules = counted := by rw [save_changes_disk]
    rcases save_outcome counted bumped with ⟨_, _, same⟩ | ⟨_, whole⟩
    · exact .inr (same location stored)
    · left
      change (bumped.save counted).2.disk.read? location =
        some (Document.text (bumped.save counted).2.rules).toUTF8
      rw [kept]
      exact whole location stored

variable {collaborators : Collaborators σ} (detached : collaborators.Detached)
include detached

/-- A rule of which an action fails tells so, and leaves registry and disk as they were. -/
theorem carryOut_failed {rule : Rule} {context : Json} {reason : String} {engine acted : Engine σ}
    {failure : Failure} (met : Conditions.hold rule.conditions context = true)
    (failed : performAll collaborators rule.id rule.actions context
      (engine.announce (.triggered rule.id reason)) = (.error failure, acted)) (time : Instant) :
    let after := (carryOut collaborators rule context time reason engine).2
    (carryOut collaborators rule context time reason engine).1 = false ∧
      after.events =
        engine.events ++ (ExecutionEnding.failed failure).events rule.id reason ∧
      after.rules = engine.rules ∧ after.disk = engine.disk := by
  have aside := performAll_aside detached rule.id rule.actions context
    (engine.announce (.triggered rule.id reason))
  rw [failed] at aside
  obtain ⟨_, _, _, rfl⟩ := aside
  rw [carryOut_of_error met failed]
  exact ⟨rfl, List.append_assoc .., rfl, rfl⟩

/-- A rule of which all actions succeed tells so. Of the registry, its record alone changes; the
document holds the registry as it is then, or what it held before because saving failed. -/
theorem carryOut_executed {rule : Rule} {context : Json} {reason : String}
    {engine acted : Engine σ} (distinct : Distinct engine.rules) (member : rule ∈ engine.rules)
    (met : Conditions.hold rule.conditions context = true)
    (performed : performAll collaborators rule.id rule.actions context
      (engine.announce (.triggered rule.id reason)) = (.ok (), acted)) (time : Instant) :
    let after := (carryOut collaborators rule context time reason engine).2
    (carryOut collaborators rule context time reason engine).1 = true ∧
      after.events = engine.events ++
        (ExecutionEnding.executed (rule.executed time).executionCount).events rule.id reason ∧
      after.rules = adjust rule.id (·.executed time) engine.rules ∧
      ∀ location, engine.storage = some location →
        after.disk.read? location = some (Document.text after.rules).toUTF8 ∨
          after.disk.node? location = engine.disk.node? location := by
  have aside := performAll_aside detached rule.id rule.actions context
    (engine.announce (.triggered rule.id reason))
  rw [performed] at aside
  obtain ⟨outside, log, actionEvents, rfl⟩ := aside
  let acted : Engine σ :=
    { engine.announce (.triggered rule.id reason) with outside, log, actionEvents }
  have apart : Distinct acted.rules := distinct
  have registered : rule ∈ acted.rules := member
  have count : (acted.credit rule.id time).1 = (rule.executed time).executionCount :=
    credit_count apart registered time
  have registry := credit_rules rule.id time acted apart
  have document (location : Location) (stored : acted.storage = some location) :=
    credit_document rule.id time acted stored
  obtain ⟨rules, disk, credited⟩ := credit_changes rule.id time acted
  rw [carryOut_of_ok met performed, count]
  refine ⟨rfl, ?_, registry, document⟩
  rw [credited]
  exact List.append_assoc ..

/-- An execution ends in one way, and everything tells of the same one. It is passed over if the
rule is not there or not active, and skipped if the conditions of the rule do not hold; then the
same happens with any other collaborators, for none is asked, and the engine is left as it was but
for the clock that was looked at and the events. It fails with the failure of the first action that
fails; then registry and disk are left as they were. Otherwise all of its actions succeed, and of
the whole registry only the record of this rule changes: it counts one execution more and tells the
time of this one, also where saving fails and the document stays as it was. -/
theorem execution_ends_in_one_way (engine : Engine σ) (distinct : Distinct engine.rules)
    (id : String) (context : Json) :
    let triggered := engine.look.2.announce (.triggered id "manual")
    let after := (engine.execute collaborators id context).2
    ∃ ending : ExecutionEnding,
      (engine.execute collaborators id context).1 = ending.ran ∧
      after.events = engine.events ++ ending.events id "manual" ∧
      match ending with
      | .passedOver =>
        (∀ rule, engine.find? id = some rule → rule.isActive = false) ∧
        ∀ others, engine.execute others id context = (false, engine.look.2)
      | .skipped => ∃ rule, engine.find? id = some rule ∧ rule.isActive = true ∧
        Conditions.hold rule.conditions context = false ∧
        ∀ others, engine.execute others id context = (false, triggered.announce (.skipped id))
      | .failed failure => ∃ rule, engine.find? id = some rule ∧ rule.isActive = true ∧
        Conditions.hold rule.conditions context = true ∧
        (∃ before action, FailsFirst collaborators id context 0 rule.actions before action failure
          triggered) ∧
        after.rules = engine.rules ∧ after.disk = engine.disk
      | .executed count => ∃ rule, engine.find? id = some rule ∧ rule.isActive = true ∧
        Conditions.hold rule.conditions context = true ∧
        AllSucceed collaborators id context 0 rule.actions triggered ∧
        (rule.executionCount.toNat + 1 < UInt64.size →
          count.toNat = rule.executionCount.toNat + 1) ∧
        after.rules = engine.rules.map (fun other =>
          if other.id = id then { other with
            executionCount := count, lastExecuted := some engine.supply.now.instant }
          else other) ∧
        ∀ location, engine.storage = some location →
          after.disk.read? location = some (Document.text after.rules).toUTF8 ∨
            after.disk.node? location = engine.disk.node? location := by
  intro triggered after
  cases found : (engine.look.2.find? id).filter (·.isActive) with
  | none =>
    have passed (others : Collaborators σ) :
        engine.execute others id context = (false, engine.look.2) := by
      simp only [execute, attempt, found]
    dsimp only [after]
    rw [passed collaborators]
    refine ⟨.passedOver, rfl, (List.append_nil _).symm, ?_, passed⟩
    intro rule there
    simpa using Option.filter_eq_none_iff.mp found rule there
  | some rule =>
    obtain ⟨there, active⟩ : engine.find? id = some rule ∧ rule.isActive = true :=
      Option.filter_eq_some_iff.mp found
    have member : rule ∈ engine.look.2.rules := List.mem_of_find?_eq_some there
    have apart : Distinct engine.look.2.rules := distinct
    obtain rfl : rule.id = id := by simpa using List.find?_some there
    have carried (others : Collaborators σ) : engine.execute others rule.id context =
        carryOut others rule context engine.supply.now.instant "manual" engine.look.2 :=
      execute_of_active there active context
    cases holds : Conditions.hold rule.conditions context with
    | false =>
      have skipped (others : Collaborators σ) : engine.execute others rule.id context =
          (false, triggered.announce (.skipped rule.id)) :=
        (carried others).trans (carryOut_of_not_hold holds ..)
      dsimp only [after]
      rw [skipped collaborators]
      exact ⟨.skipped, rfl, List.append_assoc .., rule, there, active, holds, skipped⟩
    | true =>
      dsimp only [after]
      rw [carried collaborators]
      rcases performFrom_cases collaborators rule.id context 0 rule.actions triggered with
        ⟨succeed, performed⟩ | ⟨before, action, failure, fails, performed⟩
      · obtain ⟨answer, events, rules, document⟩ := carryOut_executed detached apart member holds
          performed engine.supply.now.instant
        rw [adjust_executed apart member] at rules
        exact ⟨.executed _, answer, events, rule, there, active, holds, succeed,
          (rule.counted_executed engine.supply.now.instant).count, rules, document⟩
      · obtain ⟨answer, events, rules, disk⟩ := carryOut_failed detached holds performed
          engine.supply.now.instant
        exact ⟨.failed failure, answer, events, rule, there, active, holds,
          ⟨before, action, fails⟩, rules, disk⟩

omit detached in
/-- An execution that succeeds is counted, once, even where nothing can be saved. -/
theorem unsaved_execution_is_counted :
    let engine : Engine Unit := {
      rules := [onCompletion "transcript" [filing "transcripts"],
        onCompletion "survey" [filing "surveys"]]
      storage := some ["rules.json"]
      disk := { faults := fun _ => some 0 }
      supply := completing.supply
      outside := () }
    let after := (engine.execute .logging "survey" .null).2
    (engine.execute .logging "survey" .null).1 = true ∧
      after.events = [.triggered "survey" "manual", .executed "survey" 1] ∧
      after.rules = [onCompletion "transcript" [filing "transcripts"],
        { onCompletion "survey" [filing "surveys"] with
          executionCount := 1, lastExecuted := some ⟨60, 0⟩ }] ∧
      after.disk.node? ["rules.json"] = none := by
  intro engine after
  have distinct : Distinct engine.rules := by
    unfold Distinct
    decide +kernel
  have reported : (engine.execute .logging "survey" .null).1 = true := by decide +kernel
  have unsaved : after.disk.node? ["rules.json"] = none := rfl
  obtain ⟨ending, answer, events, told⟩ :=
    execution_ends_in_one_way Collaborators.logging_detached engine distinct "survey" .null
  rw [reported] at answer
  cases ending with
  | passedOver | skipped | failed failure => cases answer
  | executed count =>
    obtain ⟨rule, there, _, _, _, higher, rules, _⟩ := told
    obtain rfl : onCompletion "survey" [filing "surveys"] = rule := Option.some.inj there
    obtain rfl : count = 1 := UInt64.toNat_inj.mp (higher (by decide))
    exact ⟨reported, events, rules, unsaved⟩

end Engine
end CampusRules
