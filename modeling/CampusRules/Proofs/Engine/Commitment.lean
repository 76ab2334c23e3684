import CampusRules.Engine.Registry
import CampusRules.Proofs.Storage.Saving

/-!
# Changes of the registry happen as a whole or not at all

An operation on the registry is seen in three places: in the list of rules, in the
stored document, and in the events that are sent. `Untouched` says that all three
are as before, `Committed` that all three tell of one and the same new list. Every
call to add, change or remove a rule ends in one of the two, at whatever step the
disk fails and whatever an earlier failed save has left out of the document.
-/

namespace CampusRules.Engine

variable {σ : Type}

/-- Neither the registry nor its stored document has changed, and nothing was
announced or handed over. -/
structure Untouched (before after : Engine σ) : Prop where
  rules : after.rules = before.rules
  storage : after.storage = before.storage
  document : ∀ location, before.storage = some location →
    after.disk.node? location = before.disk.node? location
  events : after.events = before.events
  outside : after.outside = before.outside

/-- A list of rules has become the registry, all of it is stored if rules are stored
at all, and one event was announced. -/
structure Committed (next : List Rule) (event : Event) (before after : Engine σ) : Prop where
  rules : after.rules = next
  storage : after.storage = before.storage
  document : ∀ location, before.storage = some location →
    after.disk.read? location = some (Document.text next).toUTF8
  events : after.events = before.events ++ [event]
  outside : after.outside = before.outside

/-- Doing nothing touches nothing. -/
theorem Untouched.refl (engine : Engine σ) : Untouched engine engine :=
  ⟨rfl, rfl, fun _ _ => rfl, rfl, rfl⟩

/-- Saving changes nothing but the disk. -/
theorem save_changes_disk (rules : List Rule) (engine : Engine σ) :
    (engine.save rules).2 = { engine with disk := (engine.save rules).2.disk } := by
  unfold save
  split <;> rfl

/-- Saving either fails on the disk and leaves the stored document alone, or succeeds
and stores the whole list. Without a place to store rules it succeeds. -/
theorem save_outcome (rules : List Rule) (engine : Engine σ) :
    (∃ reason, (engine.save rules).1 = .error (.storage reason) ∧
        ∀ location, engine.storage = some location →
          (engine.save rules).2.disk.node? location = engine.disk.node? location) ∨
      ((engine.save rules).1 = .ok () ∧
        ∀ location, engine.storage = some location →
          (engine.save rules).2.disk.read? location = some (Document.text rules).toUTF8) := by
  cases stored : engine.storage with
  | none => exact .inr ⟨by simp [save, stored], by simp⟩
  | some location =>
    have saved : engine.save rules = ((Document.save location rules engine.disk).1,
        { engine with disk := (Document.save location rules engine.disk).2 }) := by
      simp [save, stored]
    rw [saved]
    rcases Document.save_outcome location rules engine.disk with
      ⟨error, failed, same⟩ | ⟨done, whole⟩
    · refine .inl ⟨error.message, failed, ?_⟩
      rintro _ ⟨⟩
      exact same
    · refine .inr ⟨done, ?_⟩
      rintro _ ⟨⟩
      exact whole

/-- A commit that is announced only when it succeeds leaves everything untouched or
commits everything. -/
theorem concluded_commit {α : Type} (answer : α) (event : Event) (rules : List Rule)
    (engine : Engine σ) :
    (∃ reason, (concluded answer event (engine.commit rules)).1 = .error (.storage reason) ∧
        Untouched engine (concluded answer event (engine.commit rules)).2) ∨
      ((concluded answer event (engine.commit rules)).1 = .ok answer ∧
        Committed rules event engine (concluded answer event (engine.commit rules)).2) := by
  have others := save_changes_disk rules engine
  rcases saved : engine.save rules with ⟨outcome, after⟩
  rcases save_outcome rules engine with ⟨reason, failed, same⟩ | ⟨done, whole⟩
  · rw [saved] at failed same others
    simp only at failed same others
    subst failed
    refine .inl ⟨reason, by simp [commit, saved, concluded], ?_⟩
    simp only [commit, saved, concluded]
    exact ⟨by rw [others], by rw [others], same, by rw [others], by rw [others]⟩
  · rw [saved] at done whole others
    simp only at done whole others
    subst done
    refine .inr ⟨by simp [commit, saved, concluded], ?_⟩
    simp only [commit, saved, concluded]
    exact ⟨rfl, by rw [others]; rfl, whole, by rw [others]; rfl, by rw [others]; rfl⟩

/-- A commit is answered for exactly if it could be saved. -/
theorem concluded_ok_iff {α : Type} (answer : α) (event : Event) (rules : List Rule)
    (engine : Engine σ) :
    (concluded answer event (engine.commit rules)).1 = .ok answer ↔
      (engine.save rules).1 = .ok () := by
  rcases result : engine.save rules with ⟨_ | _, after⟩
  · simp [commit, result, concluded]
  · simp [commit, result, concluded]

/-- The rule that a request asks for has what the clock shows for its creation, and
the next fresh identifier if it names none. -/
theorem make_rule (new : NewRule) (engine : Engine σ) :
    (engine.make new).1 = Rule.ofNew new engine.supply.fresh engine.supply.now.instant := rfl

/-- The position of an identifier is that of a rule which has it. -/
theorem position?_rule {engine : Engine σ} {id : String} {index : Nat}
    (position : engine.position? id = some index) :
    ∃ rule, engine.rules[index]? = some rule ∧ rule.id = id := by
  obtain ⟨inside, same, _⟩ := List.findIdx?_eq_some_iff_getElem.mp position
  exact ⟨engine.rules[index], List.getElem?_eq_getElem inside, by simpa using same⟩

/-- Modifying a list at a position sets what the function makes of the item there. -/
theorem modify_of_getElem? {α : Type} (items : List α) (change : α → α) (index : Nat) (item : α)
    (there : items[index]? = some item) :
    items.modify index change = items.set index (change item) := by
  apply List.ext_getElem?
  intro position
  by_cases same : index = position
  · subst same
    have inside : index < items.length := (List.getElem?_eq_some_iff.mp there).1
    rw [List.getElem?_modify_eq, List.getElem?_set_self inside, there]
    rfl
  · rw [List.getElem?_modify_ne _ _ same, List.getElem?_set_ne same]

/-- Adding a rule that is made already touches nothing or appends it. -/
theorem insert_outcome (rule : Rule) (engine : Engine σ) :
    (∃ failure, (engine.insert rule).1 = .error failure ∧ Untouched engine (engine.insert rule).2) ∨
      ((engine.insert rule).1 = .ok rule.id ∧
        Committed (engine.rules ++ [rule]) (.created rule.id) engine (engine.insert rule).2) := by
  unfold insert
  split
  · exact .inl ⟨_, rfl, .refl engine⟩
  · split
    · exact .inl ⟨_, rfl, .refl engine⟩
    · rcases concluded_commit rule.id (.created rule.id) (engine.rules ++ [rule]) engine with
        ⟨reason, failed, untouched⟩ | committed
      · exact .inl ⟨_, failed, untouched⟩
      · exact .inr committed

/-- Adding a rule that is made already succeeds exactly if it has no flaw and a new identifier, and
can be saved. -/
theorem insert_ok_iff (rule : Rule) (engine : Engine σ) :
    (engine.insert rule).1 = .ok rule.id ↔
      rule.flaw? = none ∧ engine.find? rule.id = none ∧
        (engine.save (engine.rules ++ [rule])).1 = .ok () := by
  rw [← concluded_ok_iff rule.id (.created rule.id), insert]
  cases rule.flaw? with
  | some flaw => simp
  | none => cases engine.find? rule.id <;> simp

/-- Adding a rule succeeds exactly if the rule that was asked for has no flaw and a new identifier,
and can be saved. -/
theorem add_ok_iff (new : NewRule) (engine : Engine σ) :
    let rule := Rule.ofNew new engine.supply.fresh engine.supply.now.instant
    (engine.add new).1 = .ok rule.id ↔
      rule.flaw? = none ∧ engine.find? rule.id = none ∧
        (engine.save (engine.rules ++ [rule])).1 = .ok () := by
  intro rule
  have ready (rules : List Rule) :
      ((engine.make new).2.save rules).1 = (engine.save rules).1 := by
    have storage : (engine.make new).2.storage = engine.storage := rfl
    rw [save, save, storage]
    cases engine.storage <;> rfl
  rw [← ready]
  exact insert_ok_iff rule (engine.make new).2

/-- Adding a rule touches nothing or appends the rule that was asked for. -/
theorem add_outcome (new : NewRule) (engine : Engine σ) :
    let rule := Rule.ofNew new engine.supply.fresh engine.supply.now.instant
    (∃ failure, (engine.add new).1 = .error failure ∧ Untouched engine (engine.add new).2) ∨
      ((engine.add new).1 = .ok rule.id ∧
        Committed (engine.rules ++ [rule]) (.created rule.id) engine (engine.add new).2) := by
  intro rule
  rcases insert_outcome rule (engine.make new).2 with
    ⟨failure, failed, untouched⟩ | ⟨done, committed⟩
  · exact .inl ⟨failure, failed, untouched.rules, untouched.storage, untouched.document,
      untouched.events, untouched.outside⟩
  · exact .inr ⟨done, committed.rules, committed.storage, committed.document,
      committed.events, committed.outside⟩

/-- Removing a registered rule is to commit the others. -/
theorem remove_of_position {id : String} {index : Nat} {engine : Engine σ}
    (position : engine.position? id = some index) :
    engine.remove id =
      concluded true (.removed id) (engine.commit (engine.rules.eraseIdx index)) := by
  simp only [remove, position]

/-- Removing a rule touches nothing, or takes out the first rule with the identifier. -/
theorem remove_outcome (id : String) (engine : Engine σ) :
    ((engine.remove id).1 = .ok false ∧ engine.position? id = none ∧
        Untouched engine (engine.remove id).2) ∨
      (∃ failure, (engine.remove id).1 = .error failure ∧ Untouched engine (engine.remove id).2) ∨
      ((engine.remove id).1 = .ok true ∧ ∃ index, engine.position? id = some index ∧
        Committed (engine.rules.eraseIdx index) (.removed id) engine (engine.remove id).2) := by
  cases position : engine.position? id with
  | none =>
    have same : engine.remove id = (.ok false, engine) := by simp [remove, position]
    rw [same]
    exact .inl ⟨rfl, rfl, .refl engine⟩
  | some index =>
    rw [remove_of_position position]
    rcases concluded_commit true (.removed id) (engine.rules.eraseIdx index) engine with
      ⟨reason, failed, untouched⟩ | ⟨done, committed⟩
    · exact .inr (.inl ⟨_, failed, untouched⟩)
    · exact .inr (.inr ⟨done, index, rfl, committed⟩)

/-- Changing a registered rule is to commit the rules with the merged one in its place, if that has
no flaw. -/
theorem update_of_flawless {id : String} {change : RuleChange} {index : Nat} {rule : Rule}
    {engine : Engine σ} (position : engine.position? id = some index)
    (there : engine.rules[index]? = some rule) (flawless : (rule.merge change).flaw? = none) :
    engine.update id change = concluded true (.updated id)
      (engine.commit (engine.rules.set index (rule.merge change))) := by
  have next : engine.rules.modify index (·.merge change) =
      engine.rules.set index (rule.merge change) := modify_of_getElem? _ _ _ rule there
  have inside : index < engine.rules.length := (List.getElem?_eq_some_iff.mp there).1
  simp [update, position, next, inside, flawless]

/-- Changing a rule touches nothing, or puts the merged rule, which has no flaw, in the
place of the first rule with the identifier. -/
theorem update_outcome (id : String) (change : RuleChange) (engine : Engine σ) :
    ((engine.update id change).1 = .ok false ∧ engine.position? id = none ∧
        Untouched engine (engine.update id change).2) ∨
      (∃ failure, (engine.update id change).1 = .error failure ∧
        Untouched engine (engine.update id change).2) ∨
      ((engine.update id change).1 = .ok true ∧ ∃ index rule, engine.position? id = some index ∧
        engine.rules[index]? = some rule ∧ rule.id = id ∧ (rule.merge change).flaw? = none ∧
        Committed (engine.rules.set index (rule.merge change)) (.updated id) engine
          (engine.update id change).2) := by
  cases position : engine.position? id with
  | none =>
    have same : engine.update id change = (.ok false, engine) := by simp [update, position]
    rw [same]
    exact .inl ⟨rfl, rfl, .refl engine⟩
  | some index =>
    obtain ⟨rule, there, named⟩ := position?_rule position
    cases flaw : (rule.merge change).flaw? with
    | some found =>
      have next : engine.rules.modify index (·.merge change) =
          engine.rules.set index (rule.merge change) := modify_of_getElem? _ _ _ rule there
      have inside : index < engine.rules.length := (List.getElem?_eq_some_iff.mp there).1
      have refused : engine.update id change = (.error found.failure, engine) := by
        simp [update, position, next, inside, flaw]
      rw [refused]
      exact .inr (.inl ⟨_, rfl, .refl engine⟩)
    | none =>
      rw [update_of_flawless position there flaw]
      rcases concluded_commit true (.updated id) (engine.rules.set index (rule.merge change)) engine
        with ⟨reason, failed, untouched⟩ | ⟨done, committed⟩
      · exact .inr (.inl ⟨_, failed, untouched⟩)
      · exact .inr (.inr ⟨done, index, rule, rfl, there, named, flaw, committed⟩)

/-- What can be saved is committed, and announced. -/
theorem concluded_of_saved {α : Type} (answer : α) (event : Event) {rules : List Rule}
    {engine : Engine σ} (saved : (engine.save rules).1 = .ok ()) :
    (concluded answer event (engine.commit rules)).1 = .ok answer ∧
      Committed rules event engine (concluded answer event (engine.commit rules)).2 := by
  rcases concluded_commit answer event rules engine with ⟨reason, failed, _⟩ | committed
  · rw [(concluded_ok_iff answer event rules engine).mpr saved] at failed
    cases failed
  · exact committed

/-- Removing a registered rule succeeds, if the others can be saved. -/
theorem remove_of_saved {id : String} {index : Nat} {engine : Engine σ}
    (position : engine.position? id = some index)
    (saved : (engine.save (engine.rules.eraseIdx index)).1 = .ok ()) :
    (engine.remove id).1 = .ok true ∧
      Committed (engine.rules.eraseIdx index) (.removed id) engine (engine.remove id).2 := by
  rw [remove_of_position position]
  exact concluded_of_saved true (.removed id) saved

/-- Changing a registered rule succeeds, if the merged rule has no flaw and can be saved. -/
theorem update_of_saved {id : String} {change : RuleChange} {index : Nat} {rule : Rule}
    {engine : Engine σ} (position : engine.position? id = some index)
    (there : engine.rules[index]? = some rule) (flawless : (rule.merge change).flaw? = none)
    (saved : (engine.save (engine.rules.set index (rule.merge change))).1 = .ok ()) :
    (engine.update id change).1 = .ok true ∧
      Committed (engine.rules.set index (rule.merge change)) (.updated id) engine
        (engine.update id change).2 := by
  rw [update_of_flawless position there flawless]
  exact concluded_of_saved true (.updated id) saved

/-- Removing a rule succeeds exactly if one is registered and the others can be saved. -/
theorem remove_ok_iff (id : String) (engine : Engine σ) :
    (engine.remove id).1 = .ok true ↔
      ∃ index, engine.position? id = some index ∧
        (engine.save (engine.rules.eraseIdx index)).1 = .ok () := by
  constructor
  · intro done
    cases position : engine.position? id with
    | none => simp [remove, position] at done
    | some index =>
      rw [remove_of_position position] at done
      exact ⟨index, rfl, (concluded_ok_iff true (.removed id) _ _).mp done⟩
  · rintro ⟨index, position, saved⟩
    exact (remove_of_saved position saved).1

/-- Changing a rule succeeds exactly if one is registered, has no flaw when it is merged, and can be
saved. -/
theorem update_ok_iff (id : String) (change : RuleChange) (engine : Engine σ) :
    (engine.update id change).1 = .ok true ↔
      ∃ index rule, engine.position? id = some index ∧ engine.rules[index]? = some rule ∧
        (rule.merge change).flaw? = none ∧
        (engine.save (engine.rules.set index (rule.merge change))).1 = .ok () := by
  constructor
  · intro done
    rcases update_outcome id change engine with
      ⟨missing, _⟩ | ⟨_, failed, _⟩ | ⟨_, index, rule, position, there, _, flawless, _⟩
    · rw [missing] at done
      cases done
    · rw [failed] at done
      cases done
    · rw [update_of_flawless position there flawless] at done
      exact ⟨index, rule, position, there, flawless,
        (concluded_ok_iff true (.updated id) _ _).mp done⟩
  · rintro ⟨index, rule, position, there, flawless, saved⟩
    exact (update_of_saved position there flawless saved).1

/-- A call to add, remove or change a rule is refused or fails and touches nothing, or
succeeds and commits the new registry as a whole: in memory, in the stored document
and in one event, for every state of the engine and every behaviour of its disk. It succeeds
exactly if the rule is as it should be, there or not there, and the new registry can be saved. -/
theorem registry_calls_all_or_nothing (engine : Engine σ) :
    (∀ new,
      match engine.add new with
      | (.error _, after) => Untouched engine after
      | (.ok id, after) =>
        let rule := Rule.ofNew new engine.supply.fresh engine.supply.now.instant
        id = rule.id ∧ Committed (engine.rules ++ [rule]) (.created id) engine after) ∧
    (∀ id,
      match engine.remove id with
      | (.error _, after) => Untouched engine after
      | (.ok false, after) => engine.position? id = none ∧ Untouched engine after
      | (.ok true, after) => ∃ index, engine.position? id = some index ∧
        Committed (engine.rules.eraseIdx index) (.removed id) engine after) ∧
    (∀ id change,
      match engine.update id change with
      | (.error _, after) => Untouched engine after
      | (.ok false, after) => engine.position? id = none ∧ Untouched engine after
      | (.ok true, after) => ∃ index rule, engine.position? id = some index ∧
        engine.rules[index]? = some rule ∧ rule.id = id ∧
        Committed (engine.rules.set index (rule.merge change)) (.updated id) engine after) ∧
    (∀ new,
      let rule := Rule.ofNew new engine.supply.fresh engine.supply.now.instant
      (engine.add new).1 = .ok rule.id ↔
        rule.flaw? = none ∧ engine.find? rule.id = none ∧
          (engine.save (engine.rules ++ [rule])).1 = .ok ()) ∧
    (∀ id, (engine.remove id).1 = .ok true ↔
      ∃ index, engine.position? id = some index ∧
        (engine.save (engine.rules.eraseIdx index)).1 = .ok ()) ∧
    (∀ id change, (engine.update id change).1 = .ok true ↔
      ∃ index rule, engine.position? id = some index ∧ engine.rules[index]? = some rule ∧
        (rule.merge change).flaw? = none ∧
        (engine.save (engine.rules.set index (rule.merge change))).1 = .ok ()) := by
  refine ⟨fun new => ?_, fun id => ?_, fun id change => ?_, fun new => add_ok_iff new engine,
    fun id => remove_ok_iff id engine, fun id change => update_ok_iff id change engine⟩
  · rcases result : engine.add new with ⟨outcome, after⟩
    rcases add_outcome new engine with ⟨failure, failed, untouched⟩ | ⟨done, committed⟩
    · rw [result] at failed untouched
      cases failed
      exact untouched
    · rw [result] at done committed
      cases done
      exact ⟨rfl, committed⟩
  · rcases result : engine.remove id with ⟨outcome, after⟩
    rcases remove_outcome id engine with
      ⟨missing, absent, untouched⟩ | ⟨failure, failed, untouched⟩ | ⟨done, committed⟩
    · rw [result] at missing untouched
      cases missing
      exact ⟨absent, untouched⟩
    · rw [result] at failed untouched
      cases failed
      exact untouched
    · rw [result] at done committed
      cases done
      exact committed
  · rcases result : engine.update id change with ⟨outcome, after⟩
    rcases update_outcome id change engine with
      ⟨missing, absent, untouched⟩ | ⟨failure, failed, untouched⟩ |
        ⟨done, index, rule, position, there, named, _, committed⟩
    · rw [result] at missing untouched
      cases missing
      exact ⟨absent, untouched⟩
    · rw [result] at failed untouched
      cases failed
      exact untouched
    · rw [result] at done committed
      cases done
      exact ⟨index, rule, position, there, named, committed⟩

end CampusRules.Engine
