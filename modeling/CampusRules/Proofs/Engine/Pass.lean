import CampusRules.Proofs.Engine.Collaboration

/-!
# A pass over the rules that are due

With detached collaborators, a rule that is due is still there when its turn comes, as it
was. It runs when its conditions hold and all of its actions succeed; what the rules before
it did shows only in its collaborators. So a pass runs exactly the rules that succeed at
their turn, each once, in the order of the registry, and changes nothing about the rules
but the record of those that ran.
-/

namespace CampusRules

namespace Registry

/-- A registry in which an execution at one time is counted for some identifiers. -/
def credited (ids : List String) (time : Instant) (rules : List Rule) : List Rule :=
  rules.map fun rule => if rule.id ∈ ids then rule.executed time else rule

/-- Counting executions leaves the identifiers alone. -/
theorem map_id_credited (ids : List String) (time : Instant) (rules : List Rule) :
    (credited ids time rules).map Rule.id = rules.map Rule.id := by
  rw [credited, List.map_map]
  apply List.map_congr_left
  intro rule _
  by_cases ran : rule.id ∈ ids <;> simp [ran, Rule.executed]

/-- Counting executions leaves identifiers distinct. -/
theorem Distinct.credited {rules : List Rule} (distinct : Distinct rules) (ids : List String)
    (time : Instant) : Distinct (Registry.credited ids time rules) := by
  rw [Distinct, map_id_credited]
  exact distinct

/-- Counting one execution and then others under other identifiers is counting all of
them. -/
theorem credited_adjust (id : String) (ids : List String) (time : Instant) (rules : List Rule)
    (absent : id ∉ ids) :
    credited ids time (adjust id (·.executed time) rules) = credited (id :: ids) time rules := by
  rw [credited, adjust, credited, List.map_map]
  apply List.map_congr_left
  intro rule _
  by_cases same : rule.id = id
  · have alone : (rule.executed time).id ∉ ids := by
      rw [← same] at absent
      exact absent
    simp [same, alone]
  · simp [same]

end Registry

namespace Engine

open Registry

variable {σ : Type} (collaborators : Collaborators σ)

/-- Whether a rule runs on a context: its conditions hold, and all of its actions succeed. -/
def Succeeds (rule : Rule) (context : Json) (reason : String) (engine : Engine σ) : Prop :=
  Conditions.hold rule.conditions context = true ∧
    (performAll collaborators rule.id rule.actions context
      (engine.announce (.triggered rule.id reason))).1 = .ok ()

/-- What a row of attempts at one time comes to. The identifiers of the rules that ran are
among those that were waiting, in their order; they are those of the rules that succeed when
the ones before them had their turn; and they tell all that became of the registry. -/
structure Passes (context : Json) (time : Instant) (waiting : List Rule) (engine : Engine σ) :
    Prop where
  inOrder : (runEach collaborators context time (waiting.map Rule.id) engine).1.Sublist
    (waiting.map Rule.id)
  succeeded : ∀ earlier rule later, waiting = earlier ++ rule :: later →
    (rule.id ∈ (runEach collaborators context time (waiting.map Rule.id) engine).1 ↔
      Succeeds collaborators rule context "schedule"
        (runEach collaborators context time (earlier.map Rule.id) engine).2)
  rules : (runEach collaborators context time (waiting.map Rule.id) engine).2.rules =
    credited (runEach collaborators context time (waiting.map Rule.id) engine).1 time engine.rules

/-- In a registry with distinct identifiers, a rule is found under its own. -/
theorem find?_of_mem {engine : Engine σ} (distinct : Distinct engine.rules) {rule : Rule}
    (member : rule ∈ engine.rules) : engine.find? rule.id = some rule := by
  cases found : engine.find? rule.id with
  | none =>
    have absent := List.find?_eq_none.mp found rule member
    simp at absent
  | some other =>
    have same : other.id = rule.id := by simpa using List.find?_some found
    rw [distinct.unique (List.mem_of_find?_eq_some found) member same]

variable {collaborators} (detached : collaborators.Detached)

/-- A rule whose conditions do not hold is passed over. -/
theorem carryOut_of_not_hold {rule : Rule} {context : Json}
    (unmet : Conditions.hold rule.conditions context = false) (time : Instant) (reason : String)
    (engine : Engine σ) :
    carryOut collaborators rule context time reason engine =
      (false, (engine.announce (.triggered rule.id reason)).announce (.skipped rule.id)) := by
  simp [carryOut, unmet]

/-- A rule of which an action fails ends with that. -/
theorem carryOut_of_error {rule : Rule} {context : Json} {reason : String} {engine after : Engine σ}
    {failure : Failure} (met : Conditions.hold rule.conditions context = true)
    (failed : performAll collaborators rule.id rule.actions context
      (engine.announce (.triggered rule.id reason)) = (.error failure, after)) (time : Instant) :
    carryOut collaborators rule context time reason engine =
      (false, after.announce (.failed rule.id failure.message)) := by
  simp [carryOut, met, failed]

/-- A rule of which all actions succeed is credited. -/
theorem carryOut_of_ok {rule : Rule} {context : Json} {reason : String} {engine after : Engine σ}
    (met : Conditions.hold rule.conditions context = true)
    (performed : performAll collaborators rule.id rule.actions context
      (engine.announce (.triggered rule.id reason)) = (.ok (), after)) (time : Instant) :
    carryOut collaborators rule context time reason engine =
      (true, (after.credit rule.id time).2.announce
        (.executed rule.id (after.credit rule.id time).1)) := by
  simp [carryOut, met, performed]

/-- An execution is reported when the rule succeeds. -/
theorem carryOut_iff (rule : Rule) (context : Json) (time : Instant) (reason : String)
    (engine : Engine σ) :
    (carryOut collaborators rule context time reason engine).1 = true ↔
      Succeeds collaborators rule context reason engine := by
  unfold Succeeds
  cases holds : Conditions.hold rule.conditions context with
  | false => simp [carryOut_of_not_hold holds]
  | true =>
    rcases performed : performAll collaborators rule.id rule.actions context
      (engine.announce (.triggered rule.id reason)) with ⟨_ | _, after⟩
    · simp [carryOut_of_error holds performed]
    · simp [carryOut_of_ok holds performed]

include detached

/-- An execution is counted when it is reported, and nothing else becomes of the rules. -/
theorem carryOut_rules (rule : Rule) (context : Json) (time : Instant) (reason : String)
    (engine : Engine σ) (distinct : Distinct engine.rules) :
    (carryOut collaborators rule context time reason engine).2.rules =
      if (carryOut collaborators rule context time reason engine).1 = true then
        adjust rule.id (·.executed time) engine.rules
      else engine.rules := by
  have aside := performAll_aside detached rule.id rule.actions context
    (engine.announce (.triggered rule.id reason))
  cases holds : Conditions.hold rule.conditions context with
  | false => simp [carryOut_of_not_hold holds, announce]
  | true =>
    rcases performed : performAll collaborators rule.id rule.actions context
      (engine.announce (.triggered rule.id reason)) with ⟨_ | _, after⟩
    · rw [performed] at aside
      obtain ⟨_, _, _, rfl⟩ := aside
      simp [carryOut_of_error holds performed, announce]
    · rw [performed] at aside
      obtain ⟨_, _, _, rfl⟩ := aside
      rw [carryOut_of_ok holds performed]
      exact credit_rules rule.id time _ distinct

omit detached in
/-- An attempt at a rule that is registered and active carries it out. -/
theorem attempt_of_mem {engine : Engine σ} (distinct : Distinct engine.rules) {rule : Rule}
    (member : rule ∈ engine.rules) (active : rule.isActive = true) (context : Json)
    (time : Instant) (reason : String) :
    attempt collaborators rule.id context time reason engine =
      carryOut collaborators rule context time reason engine := by
  have found : (engine.find? rule.id).filter (·.isActive) = some rule := by
    simp [find?_of_mem distinct member, Option.filter, active]
  simp [attempt, found]

omit detached in
/-- A rule that is found and active is carried out by hand at the time that the clock shows. -/
theorem execute_of_active {engine : Engine σ} {id : String} {rule : Rule}
    (found : engine.find? id = some rule) (active : rule.isActive = true) (context : Json) :
    execute collaborators id context engine =
      carryOut collaborators rule context engine.supply.now.instant "manual" engine.look.2 := by
  have selected : (engine.look.2.find? id).filter (·.isActive) = some rule :=
    Option.filter_eq_some_iff.mpr ⟨found, active⟩
  simp only [execute, attempt, selected]
  rfl

/-- The turn of a rule that is registered and active is reported exactly if the rule succeeds,
and counted if it is reported. -/
theorem turn_of_mem {rule : Rule} {context : Json} {time : Instant} {engine after : Engine σ}
    {ran : Bool} (distinct : Distinct engine.rules) (member : rule ∈ engine.rules)
    (active : rule.isActive = true)
    (turn : attempt collaborators rule.id context time "schedule" engine = (ran, after)) :
    (ran = true ↔ Succeeds collaborators rule context "schedule" engine) ∧
      after.rules =
        if ran = true then adjust rule.id (·.executed time) engine.rules else engine.rules := by
  have reported : (carryOut collaborators rule context time "schedule" engine).1 = true ↔
      Succeeds collaborators rule context "schedule" engine :=
    carryOut_iff rule context time "schedule" engine
  have counted := carryOut_rules detached rule context time "schedule" engine distinct
  rw [← attempt_of_mem distinct member active, turn] at counted reported
  exact ⟨reported, counted⟩

omit detached in
/-- A turn that is reported exactly if its rule succeeds, and counted if it is reported, goes
before the pass over the rules behind it. -/
theorem Passes.cons {rule : Rule} {rest : List Rule} {context : Json} {time : Instant}
    {engine after : Engine σ} {ran : Bool} (apart : Distinct (rule :: rest))
    (turn : attempt collaborators rule.id context time "schedule" engine = (ran, after))
    (reported : ran = true ↔ Succeeds collaborators rule context "schedule" engine)
    (counted : after.rules =
      if ran = true then adjust rule.id (·.executed time) engine.rules else engine.rules)
    (passes : Passes collaborators context time rest after) :
    Passes collaborators context time (rule :: rest) engine := by
  have tail (ids : List String) :
      (runEach collaborators context time (rule.id :: ids) engine).2 =
        (runEach collaborators context time ids after).2 := by
    simp [runEach, turn]
  have head :
      (runEach collaborators context time (rule.id :: rest.map Rule.id) engine).1 =
        if ran then rule.id :: (runEach collaborators context time (rest.map Rule.id) after).1
        else (runEach collaborators context time (rest.map Rule.id) after).1 := by
    simp [runEach, turn]
  have absent : rule.id ∉ (runEach collaborators context time (rest.map Rule.id) after).1 :=
    fun inside => (List.nodup_cons.mp apart).1 (passes.inOrder.subset inside)
  constructor
  case inOrder =>
    rw [List.map_cons, head]
    split
    · exact passes.inOrder.cons_cons _
    · exact passes.inOrder.cons _
  case succeeded =>
    intro earlier other later split
    rw [List.map_cons, head]
    cases earlier with
    | nil =>
      obtain ⟨rfl, rfl⟩ : rule = other ∧ rest = later := List.cons.inj split
      have first : (runEach collaborators context time ([].map Rule.id) engine).2 = engine := rfl
      rw [first, ← reported]
      cases ran with
      | true => simp
      | false => simp [absent]
    | cons first more =>
      obtain ⟨rfl, remaining⟩ : rule = first ∧ rest = more ++ other :: later :=
        List.cons.inj split
      have different : other.id ≠ rule.id := apart.head_ne other (by simp [remaining])
      have succeeded := passes.succeeded more other later remaining
      rw [List.map_cons, tail]
      cases ran with
      | true => simpa [different] using succeeded
      | false => simpa using succeeded
  case rules =>
    rw [List.map_cons, tail, passes.rules, head, counted]
    cases ran with
    | true => simpa using credited_adjust rule.id _ time engine.rules absent
    | false => simp

/-- A row of attempts at rules that are registered and active runs those that succeed at
their turn. The rules behind the first are untouched by its turn, because their identifiers
are others. -/
theorem passes_of_mem (context : Json) (time : Instant) (waiting : List Rule) (engine : Engine σ)
    (distinct : Distinct engine.rules) (apart : Distinct waiting)
    (present : ∀ rule ∈ waiting, rule ∈ engine.rules ∧ rule.isActive = true) :
    Passes collaborators context time waiting engine := by
  induction waiting generalizing engine with
  | nil =>
    refine ⟨.slnil, ?_, ?_⟩
    · intro earlier rule later split
      simp at split
    · simp [runEach, credited]
  | cons rule rest inductionHypothesis =>
    obtain ⟨member, active⟩ := present rule List.mem_cons_self
    rcases turn : attempt collaborators rule.id context time "schedule" engine with ⟨ran, after⟩
    obtain ⟨reported, counted⟩ := turn_of_mem detached distinct member active turn
    have still : ∀ other ∈ rest, other ∈ after.rules ∧ other.isActive = true := by
      intro other waits
      obtain ⟨there, willing⟩ := present other (List.mem_cons_of_mem _ waits)
      refine ⟨?_, willing⟩
      rw [counted]
      split
      · exact mem_adjust_of_ne (apart.head_ne other waits) there
      · exact there
    have distinctAfter : Distinct after.rules := by
      rw [counted]
      split
      · exact distinct.adjust rule.id fun _ => rfl
      · exact distinct
    exact .cons apart turn reported counted
      (inductionHypothesis after distinctAfter apart.tail still)

omit detached in
/-- The rules that a pass is about: those that are active, on a schedule, and due. -/
def dueRules (now : Reading) (engine : Engine σ) : List Rule :=
  engine.rules.filter fun rule => rule.isActive && rule.isScheduled && rule.isDue now

/-- A pass runs exactly the due rules that succeed at their turn. -/
theorem runSchedule_passes (now : Reading) (engine : Engine σ) (distinct : Distinct engine.rules) :
    Passes collaborators (scheduleContext now.instant) now.instant (engine.dueRules now)
      engine := by
  apply passes_of_mem detached _ _ _ _ distinct
  · exact distinct.filter _
  · intro rule member
    obtain ⟨present, due⟩ := List.mem_filter.mp member
    simp only [Bool.and_eq_true] at due
    exact ⟨present, due.1.1⟩

end Engine
end CampusRules
