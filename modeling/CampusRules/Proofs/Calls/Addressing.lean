import CampusRules.Proofs.Calls.Upkeep
import CampusRules.Proofs.Calls.Version
import CampusRules.Proofs.Engine.Reopening

/-!
# Rules are known by their identifiers

Whoever asks for a rule, changes it or removes it names its identifier, and gets the first rule
that has it. This is the rule that was meant, for every rule of a registry, exactly if identifiers
are distinct. An engine looks after that when rules are added, and from then on it stays so; and no
call that carries rules out gives one of them two turns.

What an engine opens on is another matter. A stored list of rules is taken as it is, but for the
rules that are not valid, and that two of them have one identifier makes neither invalid.
-/

namespace CampusRules

namespace Registry

/-- Whether the identifier of every rule of a registry leads to its own position. -/
def Addressed (rules : List Rule) : Prop :=
  ∀ index rule, rules[index]? = some rule → rules.findIdx? (·.id == rule.id) = some index

/-- Identifiers lead to their rules exactly if they are distinct. -/
theorem addressed_iff {rules : List Rule} : Addressed rules ↔ Distinct rules := by
  constructor
  · intro addressed
    refine List.nodup_iff_getElem?_ne_getElem?.mpr fun early late earlier inside same => ?_
    have bound : late < rules.length := by simpa using inside
    have before : early < rules.length := earlier.trans bound
    have alike : rules[early].id = rules[late].id := by simpa [before, bound] using same
    have first := addressed early rules[early] (List.getElem?_eq_getElem before)
    have second := addressed late rules[late] (List.getElem?_eq_getElem bound)
    rw [alike, second] at first
    exact absurd (Option.some.inj first) (Nat.ne_of_gt earlier)
  · intro distinct index rule there
    obtain ⟨inside, rfl⟩ := List.getElem?_eq_some_iff.mp there
    refine List.findIdx?_eq_some_iff_getElem.mpr ⟨inside, by simp, fun early earlier => ?_⟩
    have before : early < rules.length := earlier.trans inside
    have apart := List.nodup_iff_getElem?_ne_getElem?.mp distinct early index earlier
      (by simpa using inside)
    simpa [before, inside] using apart

end Registry

variable {σ : Type}

/-- Whether an engine serves the rule at a position by its identifier: that rule is what is found,
changed and removed under it. A change or a removal may still be refused, or fail to be saved, but
then it leaves all rules as they are. -/
structure Engine.Serves (engine : Engine σ) (index : Nat) (rule : Rule) : Prop where
  position : engine.position? rule.id = some index
  found : engine.find? rule.id = some rule
  changed : ∀ change,
    ((engine.update rule.id change).1 = .ok true ∧
      (engine.update rule.id change).2.rules = engine.rules.set index (rule.merge change)) ∨
    ((∃ failure, (engine.update rule.id change).1 = .error failure) ∧
      (engine.update rule.id change).2.rules = engine.rules)
  removed :
    ((engine.remove rule.id).1 = .ok true ∧
      (engine.remove rule.id).2.rules = engine.rules.eraseIdx index) ∨
    ((∃ failure, (engine.remove rule.id).1 = .error failure) ∧
      (engine.remove rule.id).2.rules = engine.rules)

namespace Engine

open Registry

/-- A rule whose identifier leads to its position is served by it. -/
theorem serves_of_position {engine : Engine σ} {index : Nat} {rule : Rule}
    (there : engine.rules[index]? = some rule) (position : engine.position? rule.id = some index) :
    engine.Serves index rule := by
  constructor
  case position => exact position
  case found =>
    have first : engine.find? rule.id = (engine.position? rule.id).bind (engine.rules[·]?) :=
      List.find?_eq_bind_findIdx?_getElem?
    rw [first, position, Option.bind_some, there]
  case changed =>
    intro change
    rcases update_outcome rule.id change engine with
      ⟨_, missing, _⟩ | ⟨failure, failed, untouched⟩ |
        ⟨done, place, current, here, registered, _, _, committed⟩
    · rw [position] at missing
      cases missing
    · exact .inr ⟨⟨failure, failed⟩, untouched.rules⟩
    · obtain rfl : index = place := Option.some.inj (position.symm.trans here)
      obtain rfl : rule = current := Option.some.inj (there.symm.trans registered)
      exact .inl ⟨done, committed.rules⟩
  case removed =>
    rcases remove_outcome rule.id engine with
      ⟨_, missing, _⟩ | ⟨failure, failed, untouched⟩ | ⟨done, place, here, committed⟩
    · rw [position] at missing
      cases missing
    · exact .inr ⟨⟨failure, failed⟩, untouched.rules⟩
    · obtain rfl : index = place := Option.some.inj (position.symm.trans here)
      exact .inl ⟨done, committed.rules⟩

/-- An engine serves every rule by its identifier exactly if identifiers are distinct. -/
theorem serves_iff {engine : Engine σ} :
    (∀ index rule, engine.rules[index]? = some rule → engine.Serves index rule) ↔
      Distinct engine.rules := by
  constructor
  · intro serves
    exact addressed_iff.mp fun index rule there => (serves index rule there).position
  · intro distinct index rule there
    exact serves_of_position there (addressed_iff.mpr distinct index rule there)

end Engine

/-- The identifier that a deed looks up, if it finds an active rule. -/
def Deed.turn? : Deed → Option String
  | .looked id (some _) => some id
  | _ => none

/-- The identifiers of the rules that are given a turn in sections, in order. -/
def Section.turns (sections : List (Section σ)) : List String :=
  (Section.allDeeds sections).filterMap Deed.turn?

/-- The turns of sections in a row. -/
theorem Section.turns_append (first second : List (Section σ)) :
    Section.turns (first ++ second) = Section.turns first ++ Section.turns second := by
  simp [Section.turns, Section.allDeeds]

/-- Sections that do nothing give no rule a turn. -/
theorem Section.turns_of_silent {sections : List (Section σ)}
    (silent : ∀ taken ∈ sections, taken.deeds = []) : Section.turns sections = [] := by
  rw [turns, allDeeds, List.flatMap_eq_nil_iff.mpr silent]
  rfl

variable {collaborators : Collaborators σ}

/-- What is done about a rule at its turn gives no other rule a turn. -/
theorem Rule.turn?_proceeding (assisted : Bool) (context : Json) (rule : Rule) (time : Instant)
    (outcome : Except Failure Unit) :
    (rule.proceeding assisted context time outcome).filterMap Deed.turn? = [] := by
  refine List.filterMap_eq_nil_iff.mpr fun deed member => ?_
  unfold Rule.proceeding at member
  split at member
  · simp only [Rule.performing, List.mem_cons, List.mem_append, List.mem_map, List.not_mem_nil,
      or_false] at member
    rcases member with rfl | ⟨_, _, rfl⟩ | rfl | rfl <;> rfl
  · obtain rfl := List.mem_singleton.mp member
    rfl

/-- A turn is given to the rule that is looked up, if it is given to any. -/
theorem Attempt.turns_sublist {context : Json} {attempt : Attempt σ}
    (consistent : attempt.Consistent collaborators context) :
    (Section.turns attempt.sections).Sublist [attempt.id] := by
  have opens : Section.turns attempt.sections =
      [Deed.looked attempt.id attempt.version?].filterMap Deed.turn? ++
        Section.turns attempt.followed := by
    rw [Attempt.sections, ← List.singleton_append, Section.turns_append, Section.turns,
      Section.allDeeds, List.flatMap_singleton, consistent.lookedUp]
  rw [opens]
  cases version : attempt.version? with
  | none =>
    rw [consistent.passedOver version]
    exact List.nil_sublist _
  | some rule =>
    obtain ⟨time, outcome, done⟩ := consistent.carriedOut rule version
    have none : Section.turns attempt.followed = [] := by
      have within := done.filterMap Deed.turn?
      rw [Rule.turn?_proceeding] at within
      exact List.prefix_nil.mp within
    rw [none]
    exact List.Sublist.refl _

/-- The rules that are given turns are among those that are looked up, in their order. -/
theorem Attempt.flatMap_turns_sublist {context : Json} {attempts : List (Attempt σ)}
    (consistent : ∀ attempt ∈ attempts, attempt.Consistent collaborators context) :
    (Section.turns (attempts.flatMap Attempt.sections)).Sublist (attempts.map Attempt.id) := by
  induction attempts with
  | nil => exact List.nil_sublist _
  | cons attempt rest inductionHypothesis =>
    obtain ⟨here, behind⟩ := List.forall_mem_cons.mp consistent
    rw [List.flatMap_cons, Section.turns_append]
    exact (attempt.turns_sublist here).append (inductionHypothesis behind)

/-- A call gives turns to rules that it has selected, in their order. -/
theorem Command.Divided.turns_sublist {command : Command} {sections : List (Section σ)}
    {last : Call} {opening : List (Section σ)} {chosen : Section σ} {attempts : List (Attempt σ)}
    {closing : List (Section σ)}
    (divided : command.Divided collaborators sections last opening chosen attempts closing) :
    ∃ context waiting, command.Selects chosen.found context waiting ∧
      (Section.turns sections).Sublist waiting := by
  obtain ⟨context, waiting, selects, divides⟩ := divided.selects
  have opens : Section.turns (opening ++ [chosen]) = [] :=
    Section.turns_of_silent fun taken member => (divided.opens taken member).1
  have closes : Section.turns closing = [] :=
    Section.turns_of_silent fun taken member => (divides.idle taken member).1
  have all : Section.turns sections = Section.turns (attempts.flatMap Attempt.sections) := by
    rw [divided.all, ← List.singleton_append, ← List.append_assoc, Section.turns_append, opens,
      Section.turns_append, closes, List.nil_append, List.append_nil]
  refine ⟨context, waiting, selects, ?_⟩
  rw [all]
  exact (Attempt.flatMap_turns_sublist divides.consistent).trans divides.order.sublist

/-- With distinct identifiers, no rule is selected twice. -/
theorem Command.Selects.nodup {command : Command} {found : Engine σ} {context : Json}
    {waiting : List String} (selects : command.Selects found context waiting)
    (distinct : Registry.Distinct found.rules) : waiting.Nodup := by
  cases selects with
  | execute => exact List.nodup_singleton _
  | trigger | schedule | clock => exact distinct.filter _

/-- A call gives no rule two turns, if it finds a registry with distinct identifiers when it selects
its rules. -/
theorem Course.turns_nodup {command : Command} {sections : List (Section σ)} {last : Call}
    (course : Course collaborators (.asked command) sections last)
    (carries : command.carriesOut = true)
    (distinct : ∀ taken ∈ sections, Registry.Distinct taken.found.rules) :
    (Section.turns sections).Nodup := by
  rcases course.divided carries with ⟨_, silent⟩ | ⟨opening, chosen, attempts, closing, divided⟩
  · rw [Section.turns_of_silent silent]
    exact List.nodup_nil
  · obtain ⟨context, waiting, selects, among⟩ := divided.turns_sublist
    have here : chosen ∈ sections := by
      rw [divided.all]
      exact List.mem_append_right _ List.mem_cons_self
    exact (selects.nodup (distinct chosen here)).sublist among

namespace Engine

open Registry

/-- Whether every rule is served by its identifier when calls have gone on in some order, and no
call has given a rule two turns. -/
def AddressesBy (collaborators : Collaborators σ) (commands : List Command) (callers : List Nat)
    (engine : Engine σ) : Prop :=
  let followed := Traffic.follow collaborators callers ⟨engine, commands.map .asked⟩
  (∀ index rule, followed.2.engine.rules[index]? = some rule →
    followed.2.engine.Serves index rule) ∧
  ∀ (caller : Nat) (command : Command), commands[caller]? = some command →
    command.carriesOut = true → (Section.turns (Section.of caller followed.1)).Nodup

/-- From a registry with distinct identifiers on, every rule is served by its identifier, and no
call gives a rule two turns. -/
theorem addressesBy_of_distinct (bound : collaborators.Bound) {engine : Engine σ}
    (distinct : Distinct engine.rules) (commands : List Command) (callers : List Nat) :
    AddressesBy collaborators commands callers engine := by
  obtain ⟨found, left⟩ := Traffic.keeps_follow Amendment.keepUp_distinct
    (sections_keep_of_bound Amendment.keepUp_distinct bound) callers
    ⟨engine, commands.map .asked⟩ distinct
  refine ⟨serves_iff.mpr left, fun caller command asked carries => ?_⟩
  obtain ⟨last, _, course⟩ := Traffic.course_follow collaborators callers
    ⟨engine, commands.map .asked⟩ (List.getElem?_map.trans (by rw [asked]; rfl))
  exact course.turns_nodup carries fun taken member => found taken (List.mem_filter.mp member).1

/-- An engine opens on every stored list of rules, with the valid ones in their order. From then on,
whatever is asked of it, by how many callers and in which order, every rule is served by its
identifier and given one turn at most in a call, if and only if the identifiers of the rules that it
opened on are distinct. -/
theorem loaded_rules_are_addressed_iff {config : EngineConfig} {location : Location}
    (place : config.storage = some location) {disk : Disk} {stored : List Rule}
    (loaded : (Document.load location disk).1 = some stored) (supply : Supply) (outside : σ) :
    let opened := start config disk supply outside
    opened.1 = .ok () ∧ opened.2.rules = stored.filter Rule.isValid ∧
      (Distinct (stored.filter Rule.isValid) ↔
        ∀ collaborators : Collaborators σ, collaborators.Bound → ∀ commands callers,
          AddressesBy collaborators commands callers opened.2) := by
  intro opened
  have begun := start_of_stored place loaded supply outside
  have rules : opened.2.rules = stored.filter Rule.isValid := congrArg (·.2.rules) begun
  refine ⟨congrArg Prod.fst begun, rules, ?_⟩
  rw [← rules]
  constructor
  · intro distinct collaborators bound commands callers
    exact addressesBy_of_distinct bound distinct commands callers
  · intro addresses
    have first := addresses .logging Collaborators.logging_detached.bound [] []
    exact serves_iff.mp first.1

/-- A rule under an identifier that takes note of whoever enrols. -/
def noting (id : String) : Rule := { welcome with id, actions := [] }

/-- A disk on which such rules are stored. -/
def noted (ids : List String) : Disk := holding (Document.text (ids.map noting))

/-- The engine that is opened there. -/
def noticing (ids : List String) : Engine Unit where
  rules := ids.map noting
  storage := some ["data", "rules.json"]
  disk := noted ids
  supply := welcoming.supply
  outside := ()

/-- Rules that take note are loaded from where they are stored. -/
theorem loaded_noted (ids : List String) :
    (Document.load ["data", "rules.json"] (noted ids)).1 = some (ids.map noting) := by
  have midnight : (Instant.mk 0 0).IsTime := ⟨by decide, by decide, by decide, by decide⟩
  have legible : ∀ rule ∈ ids.map noting, rule.Legible := by
    intro rule member
    obtain ⟨id, _, rfl⟩ := List.mem_map.mp member
    exact ⟨trivial, by simp [noting, welcome], by simp [noting], midnight, by simp [noting, welcome]⟩
  have fits : ∀ rule ∈ ids.map noting, Document.Fits rule := by
    intro rule member
    obtain ⟨id, _, rfl⟩ := List.mem_map.mp member
    have shallow : (noting id).toJson.depth = 2 := rfl
    rw [Document.Fits, shallow]
    decide
  have held : (noted ids).readText? ["data", "rules.json"] =
      some (Document.text (ids.map noting)) := Document.readText?_of_read? rfl
  rw [Document.load_fst, held, Option.bind_some, Document.parse?_text legible fits]

/-- Rules that take note are valid. -/
theorem valid_noting (ids : List String) :
    (ids.map noting).filter Rule.isValid = ids.map noting := by
  refine List.filter_eq_self.mpr fun rule member => ?_
  obtain ⟨id, _, rfl⟩ := List.mem_map.mp member
  have sample : (noting "desk").isValid = true := by decide +kernel
  exact sample

/-- An engine opens on all stored rules that take note. -/
theorem start_noted (ids : List String) :
    start shelf (noted ids) welcoming.supply () = (.ok (), noticing ids) := by
  rw [start_of_stored rfl (loaded_noted ids), valid_noting]
  rfl

/-- Two stored rules of different identifiers are both served, and have one turn each when a student
enrols. -/
theorem stored_pair_is_addressed :
    (start shelf (noted ["desk", "library"]) welcoming.supply ()).2.rules.map Rule.id =
        ["desk", "library"] ∧
      AddressesBy .logging [.trigger "student_enrolled" .null, .remove "desk"]
        (List.replicate 9 0 ++ [1])
        (start shelf (noted ["desk", "library"]) welcoming.supply ()).2 := by
  have place : shelf.storage = some ["data", "rules.json"] := rfl
  have addressed := (loaded_rules_are_addressed_iff place (loaded_noted ["desk", "library"])
    welcoming.supply ()).2.2
  have distinct : Distinct ((["desk", "library"].map noting).filter Rule.isValid) := by
    rw [valid_noting, Distinct]
    decide
  refine ⟨?_, addressed.mp distinct .logging Collaborators.logging_detached.bound _ _⟩
  rw [start_noted]
  rfl

/-- Two stored rules of one identifier are both loaded. Only the first can be reached by it, and
when a student enrols it runs twice, in place of the second. -/
theorem stored_twins_run_twice :
    let opened := start shelf (noted ["desk", "desk"]) welcoming.supply ()
    let ran := opened.2.trigger .logging "student_enrolled" .null
    opened.1 = .ok () ∧ opened.2.rules.map Rule.id = ["desk", "desk"] ∧
      ¬Distinct opened.2.rules ∧
      (¬∀ index rule, opened.2.rules[index]? = some rule → opened.2.Serves index rule) ∧
      ran.1 = ["desk", "desk"] ∧ ran.2.rules.map Rule.executionCount = [2, 0] := by
  rw [start_noted]
  have twins : ¬Distinct (noticing ["desk", "desk"]).rules := by
    rw [Distinct]
    decide
  refine ⟨rfl, rfl, twins, fun serves => twins (serves_iff.mp serves), ?_, ?_⟩
  · decide +kernel
  · decide +kernel

end Engine
end CampusRules
