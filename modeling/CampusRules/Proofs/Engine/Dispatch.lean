import CampusRules.Proofs.Engine.Exchange

/-!
# Dispatching to one rule after the other

With collaborators that do not call back, a row of attempts at rules that are registered and
active is a row of turns: the rules are carried out as they were when they were selected, in
that order, and each begins where the one before left the collaborators, whether that one
ran, was skipped or failed. The rules that ran are counted, each at its own time, and nothing
else becomes of the registry.

So an event runs the active rules that listen for it in registry order, and what it exchanges
with the collaborators is what these rules exchange one after the other.
-/

namespace CampusRules

/-- The rule that an event says is about to be carried out, and the reason for that. -/
def Event.trigger? : Event → Option (String × String)
  | .triggered id reason => some (id, reason)
  | _ => none

/-- Counting an execution leaves alone all of a rule but its count and the time it last ran at.
The count is one higher, as long as there is a higher one, and the time is that of the
execution. -/
structure Rule.Counted (old : Rule) (time : Instant) (new : Rule) : Prop where
  others : new = { old with
    executionCount := new.executionCount, lastExecuted := new.lastExecuted }
  count : old.executionCount.toNat + 1 < UInt64.size →
    new.executionCount.toNat = old.executionCount.toNat + 1
  stamp : new.lastExecuted = some time

/-- One execution at a time counts. -/
theorem Rule.counted_executed (rule : Rule) (time : Instant) :
    rule.Counted time (rule.executed time) := by
  refine ⟨rfl, ?_, rfl⟩
  intro below
  have higher : (rule.executed time).executionCount = rule.executionCount + 1 := rfl
  rw [higher, UInt64.toNat_add, UInt64.toNat_one]
  exact Nat.mod_eq_of_lt below

namespace Registry

/-- A registry in which executions are counted one after the other, each for an identifier at
a time. -/
def counted (executions : List (String × Instant)) (rules : List Rule) : List Rule :=
  executions.foldl (fun counted execution =>
    adjust execution.1 (·.executed execution.2) counted) rules

/-- What executions for different identifiers, each counted once, make of a registry. -/
theorem counted_of_nodup (executions : List (String × Instant)) (rules : List Rule)
    (once : (executions.map Prod.fst).Nodup) :
    counted executions rules = rules.map fun rule =>
      match executions.lookup rule.id with
      | some time => rule.executed time
      | none => rule := by
  induction executions generalizing rules with
  | nil => simp [counted]
  | cons execution rest inductionHypothesis =>
    obtain ⟨id, time⟩ := execution
    obtain ⟨absent, onceMore⟩ := List.nodup_cons.mp once
    have later := inductionHypothesis (adjust id (·.executed time) rules) onceMore
    have unlisted : rest.lookup id = none := by
      rw [List.lookup_eq_none_iff]
      intro other member
      have different : other.1 ≠ id := fun same =>
        absent (List.mem_map.mpr ⟨other, member, same⟩)
      simpa using Ne.symm different
    rw [counted, List.foldl_cons]
    refine later.trans ?_
    rw [adjust, List.map_map]
    apply List.map_congr_left
    intro rule _
    by_cases same : rule.id = id
    · have kept : (rule.executed time).id = id := same
      simp [same, kept, unlisted]
    · have apart : (rule.id == id) = false := by simpa using same
      simp [same, List.lookup_cons, apart]

end Registry

namespace Engine

open Behaviour Registry

variable {σ : Type} {collaborators : Collaborators σ} {behaviour : Behaviour σ}

/-- What an attempt at a rule comes to: a turn that was taken at a time and for a reason. -/
structure Takes (behaviour : Behaviour σ) (taken : Turn) (time : Instant) (reason : String)
    (before after : Engine σ) : Prop where
  outside : after.outside = behaviour.receive taken.handed before.outside
  rules : after.rules =
    if taken.ran then adjust taken.rule.id (·.executed time) before.rules else before.rules
  supply : after.supply = before.supply
  triggers : ∃ sent, after.events = before.events ++ sent ∧
    sent.filterMap Event.trigger? = [(taken.rule.id, reason)]

variable (behaves : collaborators.Behaves behaviour)
include behaves

/-- Carrying out a rule is its turn. -/
theorem carryOut_turn (rule : Rule) (context : Json) (time : Instant) (reason : String)
    (engine : Engine σ) (distinct : Distinct engine.rules) :
    let taken := turn behaviour collaborators.assisted context rule engine.outside
    (carryOut collaborators rule context time reason engine).1 = taken.ran ∧
      Takes behaviour taken time reason engine
        (carryOut collaborators rule context time reason engine).2 := by
  cases holds : Conditions.hold rule.conditions context with
  | false =>
    have idle : turn behaviour collaborators.assisted context rule engine.outside =
        ⟨rule, false, []⟩ := by simp [turn, holds]
    rw [idle, carryOut_of_not_hold holds]
    exact ⟨rfl, rfl, rfl, rfl, [.triggered rule.id reason, .skipped rule.id],
      List.append_assoc .., rfl⟩
  | true =>
    let triggered := engine.announce (.triggered rule.id reason)
    obtain ⟨log, actionEvents, performed⟩ :=
      performFrom_exchange behaves rule.id context rule.actions 0 triggered
    have state : triggered.outside = engine.outside := rfl
    rw [state] at performed
    have busy : turn behaviour collaborators.assisted context rule engine.outside =
        ⟨rule, (exchange behaviour collaborators.assisted context rule.actions
            engine.outside).outcome.isOk,
          (exchange behaviour collaborators.assisted context rule.actions
            engine.outside).handed⟩ := by simp [turn, holds]
    rw [busy]
    generalize exchange behaviour collaborators.assisted context rule.actions engine.outside =
      exchanged at performed
    rcases exchanged with ⟨handed, failure | _⟩
    · rw [carryOut_of_error holds performed]
      exact ⟨rfl, rfl, rfl, rfl, [.triggered rule.id reason, .failed rule.id failure.message],
        List.append_assoc .., rfl⟩
    · rw [carryOut_of_ok holds performed]
      obtain ⟨rules, disk, credited⟩ := credit_changes rule.id time { triggered with
        outside := behaviour.receive handed engine.outside, log, actionEvents }
      have counted := credit_rules rule.id time { triggered with
        outside := behaviour.receive handed engine.outside, log, actionEvents } distinct
      rw [credited] at counted ⊢
      exact ⟨rfl, rfl, counted, rfl, [.triggered rule.id reason, .executed rule.id _],
        List.append_assoc .., rfl⟩

/-- An attempt at a rule that is registered and active is the turn of that very rule. -/
theorem attempt_turn {rule : Rule} (context : Json) (time : Instant) (reason : String)
    (engine : Engine σ) (distinct : Distinct engine.rules) (member : rule ∈ engine.rules)
    (active : rule.isActive = true) :
    let taken := turn behaviour collaborators.assisted context rule engine.outside
    (attempt collaborators rule.id context time reason engine).1 = taken.ran ∧
      Takes behaviour taken time reason engine
        (attempt collaborators rule.id context time reason engine).2 := by
  rw [attempt_of_mem distinct member active]
  exact carryOut_turn behaves rule context time reason engine distinct

omit behaves in
/-- The rules behind a turn are still registered and active after it. -/
theorem Takes.still {taken : Turn} {time : Instant} {reason : String} {before after : Engine σ}
    {rest : List Rule} (takes : Takes behaviour taken time reason before after)
    (apart : Distinct (taken.rule :: rest))
    (present : ∀ rule ∈ rest, rule ∈ before.rules ∧ rule.isActive = true) :
    ∀ rule ∈ rest, rule ∈ after.rules ∧ rule.isActive = true := by
  intro rule waits
  obtain ⟨there, active⟩ := present rule waits
  refine ⟨?_, active⟩
  rw [takes.rules]
  split
  · exact mem_adjust_of_ne (apart.head_ne rule waits) there
  · exact there

omit behaves in
/-- Identifiers stay distinct through a turn. -/
theorem Takes.distinct {taken : Turn} {time : Instant} {reason : String} {before after : Engine σ}
    (takes : Takes behaviour taken time reason before after) (distinct : Distinct before.rules) :
    Distinct after.rules := by
  rw [takes.rules]
  split
  · exact distinct.adjust _ fun _ => rfl
  · exact distinct

/-- The executions in a row of turns, if the clock is looked at before each turn. -/
def executions : Supply → List Turn → List (String × Instant)
  | _, [] => []
  | supply, taken :: rest =>
    (if taken.ran then [(taken.rule.id, supply.now.instant)] else []) ++
      executions supply.afterLook rest

omit behaves in
/-- The executions are those of the rules that ran. -/
theorem map_fst_executions (supply : Supply) (taken : List Turn) :
    (executions supply taken).map Prod.fst = Behaviour.ran taken := by
  induction taken generalizing supply with
  | nil => rfl
  | cons first rest inductionHypothesis =>
    have later := inductionHypothesis supply.afterLook
    cases ran : first.ran <;> simp [executions, Behaviour.ran, ran, later]

omit behaves in
/-- An execution happens in one of the turns, at the time of the look before it. -/
theorem of_mem_executions {supply : Supply} {taken : List Turn} {execution : String × Instant}
    (member : execution ∈ executions supply taken) :
    ∃ position, (taken.map (·.rule.id))[position]? = some execution.1 ∧
      execution.2 = (supply.clock (supply.looks + position)).instant := by
  induction taken generalizing supply with
  | nil => cases member
  | cons first rest inductionHypothesis =>
    rcases List.mem_append.mp member with now | later
    · split at now
      · obtain rfl := List.mem_singleton.mp now
        exact ⟨0, rfl, rfl⟩
      · cases now
    · obtain ⟨position, there, time⟩ := inductionHypothesis later
      refine ⟨position + 1, there, ?_⟩
      have looks : supply.afterLook.looks + position = supply.looks + (position + 1) :=
        Nat.add_right_comm supply.looks 1 position
      rw [time, looks]
      rfl

omit behaves in
/-- Where every rule has one turn, an execution is counted at the time of the look before the
turn of its rule. -/
theorem time_of_lookup_executions {supply : Supply} {taken : List Turn} {id : String}
    {time : Instant} (apart : (taken.map (·.rule.id)).Nodup)
    (found : (executions supply taken).lookup id = some time) :
    time = (supply.clock (supply.looks + (taken.map (·.rule.id)).idxOf id)).instant := by
  obtain ⟨before, after, split, _⟩ := List.lookup_eq_some_iff.mp found
  have member : (id, time) ∈ executions supply taken := by simp [split]
  obtain ⟨position, there, shown⟩ := of_mem_executions member
  obtain ⟨inside, same⟩ := List.getElem?_eq_some_iff.mp there
  have first : (taken.map (·.rule.id)).idxOf id = position := by
    have only := apart.idxOf_getElem position inside
    rwa [same] at only
  rw [first]
  exact shown

/-- What a row of attempts at rules that wait comes to: the turns of these rules, as they
are, one after the other, each at the time of a look of its own. -/
structure Dispatches (behaviour : Behaviour σ) (taken : List Turn) (reason : String)
    (reported : List String) (before after : Engine σ) : Prop where
  ids : reported = Behaviour.ran taken
  outside : after.outside = behaviour.receive (messages taken) before.outside
  rules : after.rules = counted (executions before.supply taken) before.rules
  triggers : ∃ sent, after.events = before.events ++ sent ∧
    sent.filterMap Event.trigger? = taken.map fun one => (one.rule.id, reason)

omit behaves in
/-- Nothing comes of no attempts. -/
theorem Dispatches.nil (reason : String) (engine : Engine σ) :
    Dispatches behaviour [] reason [] engine engine :=
  ⟨rfl, rfl, rfl, [], (List.append_nil _).symm, rfl⟩

omit behaves in
/-- A look and a turn, and then a row of turns, is one row of turns. -/
theorem Dispatches.cons {taken : Turn} {others : List Turn} {reason : String}
    {ids : List String} {before between after : Engine σ}
    (takes : Takes behaviour taken before.look.1.instant reason before.look.2 between)
    (dispatches : Dispatches behaviour others reason ids between after) :
    Dispatches behaviour (taken :: others) reason
      (if taken.ran then taken.rule.id :: ids else ids) before after := by
  obtain ⟨sent, told, triggered⟩ := takes.triggers
  obtain ⟨more, toldLater, triggeredLater⟩ := dispatches.triggers
  constructor
  case ids =>
    rw [dispatches.ids]
    cases ran : taken.ran <;> simp [Behaviour.ran, ran]
  case outside =>
    rw [dispatches.outside, takes.outside, ← receive_append]
    rfl
  case rules =>
    rw [dispatches.rules, takes.rules, takes.supply, executions]
    cases taken.ran with
    | true => rfl
    | false => rfl
  case triggers =>
    have start : before.look.2.events = before.events := rfl
    refine ⟨sent ++ more, by rw [toldLater, told, start, List.append_assoc], ?_⟩
    rw [List.filterMap_append, triggered, triggeredLater]
    rfl

/-- A row of attempts at the clock's times, at rules that are registered and active, is the row
of their turns. -/
theorem triggerEach_dispatches (context : Json) (reason : String) (waiting : List Rule)
    (engine : Engine σ) (distinct : Distinct engine.rules) (apart : Distinct waiting)
    (present : ∀ rule ∈ waiting, rule ∈ engine.rules ∧ rule.isActive = true) :
    Dispatches behaviour
      (turns behaviour collaborators.assisted context waiting engine.outside) reason
      (triggerEach collaborators context reason (waiting.map Rule.id) engine).1 engine
      (triggerEach collaborators context reason (waiting.map Rule.id) engine).2 := by
  induction waiting generalizing engine with
  | nil => exact .nil reason engine
  | cons rule rest inductionHypothesis =>
    obtain ⟨member, active⟩ := present rule List.mem_cons_self
    let taken := turn behaviour collaborators.assisted context rule engine.outside
    have named : taken.rule = rule := by
      simp only [taken, turn]
      split <;> rfl
    obtain ⟨reported, takes⟩ := attempt_turn behaves context engine.look.1.instant reason
      engine.look.2 distinct member active
    have first : Takes behaviour taken engine.look.1.instant reason engine.look.2 _ := takes
    have others := inductionHypothesis _ (first.distinct distinct) apart.tail
      (first.still (named ▸ apart) fun other waits => present other (List.mem_cons_of_mem _ waits))
    rw [first.outside] at others
    have both := Dispatches.cons first others
    simp only [List.map_cons, triggerEach, turns]
    rw [reported]
    rw [named] at both
    exact both

omit behaves in
/-- Executions that are each counted once leave every rule alone but for its record, and that
too unless they are executions of it. -/
theorem forall₂_counted {executions : List (String × Instant)} {rules : List Rule}
    (once : (executions.map Prod.fst).Nodup) {time : String → Instant}
    (times : ∀ id shown, executions.lookup id = some shown → shown = time id) :
    List.Forall₂ (fun old new =>
        if old.id ∈ executions.map Prod.fst then old.Counted (time old.id) new else new = old)
      rules (counted executions rules) := by
  rw [counted_of_nodup executions rules once]
  apply List.forall₂_map_right_iff.mpr
  apply List.forall₂_same.mpr
  intro rule _
  cases found : executions.lookup rule.id with
  | none =>
    have absent : rule.id ∉ executions.map Prod.fst := by
      intro listed
      obtain ⟨execution, member, same⟩ := List.mem_map.mp listed
      have apart := List.lookup_eq_none_iff.mp found execution member
      simp [same] at apart
    rw [if_neg absent]
  | some shown =>
    have listed : rule.id ∈ executions.map Prod.fst := by
      obtain ⟨before, after, split, _⟩ := List.lookup_eq_some_iff.mp found
      simp [split]
    rw [if_pos listed, ← times rule.id shown found]
    exact rule.counted_executed shown

/-- An event runs the active rules that listen for it, one after the other in registry order,
each with the conditions and actions that it had when the event came, and from where the one
before left the collaborators. It reports exactly those whose conditions hold on the context
and whose actions all succeed, once each and in that order. The collaborators receive what
these rules hand over one after the other. The rules that are reported count one execution
more and tell when, by the look at the clock before their turn; every other rule of the registry
is as before. -/
theorem trigger_dispatches_listeners (engine : Engine σ) (distinct : Distinct engine.rules)
    (event : String) (context : Json) :
    let listeners := engine.rules.filter fun rule => rule.isActive && rule.listensFor event
    let taken := turns behaviour collaborators.assisted context listeners engine.outside
    let ids := (engine.trigger collaborators event context).1
    let after := (engine.trigger collaborators event context).2
    ids = Behaviour.ran taken ∧ ids.Nodup ∧
      after.outside = behaviour.receive (messages taken) engine.outside ∧
      (∃ sent, after.events = engine.events ++ sent ∧
        sent.filterMap Event.trigger? =
          listeners.map fun rule => (rule.id, "event:" ++ event)) ∧
      List.Forall₂ (fun old new =>
          if old.id ∈ ids then
            old.Counted
              (engine.supply.clock
                (engine.supply.looks + (listeners.map Rule.id).idxOf old.id)).instant new
          else new = old)
        engine.rules after.rules := by
  intro listeners taken ids after
  have present : ∀ rule ∈ listeners, rule ∈ engine.rules ∧ rule.isActive = true := by
    intro rule member
    obtain ⟨registered, selected⟩ := List.mem_filter.mp member
    exact ⟨registered, (Bool.and_eq_true_iff.mp selected).1⟩
  have dispatches : Dispatches behaviour taken ("event:" ++ event) ids engine after :=
    triggerEach_dispatches behaves context _ listeners engine distinct (distinct.filter _) present
  have waiting : taken.map Turn.rule = listeners := rules_turns ..
  have named : listeners.map Rule.id = taken.map (·.rule.id) := by
    rw [← waiting, List.map_map]
    rfl
  have apart : (taken.map (·.rule.id)).Nodup := by
    rw [← named]
    exact distinct.filter _
  have reported : (executions engine.supply taken).map Prod.fst = ids :=
    (map_fst_executions _ _).trans dispatches.ids.symm
  have once : ids.Nodup := by
    rw [dispatches.ids]
    exact apart.sublist (List.filter_sublist.map _)
  refine ⟨dispatches.ids, once, dispatches.outside, ?_, ?_⟩
  · obtain ⟨sent, told, triggered⟩ := dispatches.triggers
    refine ⟨sent, told, ?_⟩
    rw [triggered, ← waiting, List.map_map]
    rfl
  · rw [dispatches.rules, ← reported, named]
    exact forall₂_counted (reported ▸ once) fun _ _ found =>
      time_of_lookup_executions apart found

/-- A rule that is carried out when a course is completed. -/
def onCompletion (id : String) (actions : List Action) : Rule where
  id := id
  name := id
  description := ""
  trigger := .event "course_completed"
  conditions := []
  actions := actions
  isActive := true
  createdAt := ⟨0, 0⟩
  lastExecuted := none
  executionCount := 0

/-- An action that makes an empty record. -/
def filing (table : String) : Action := ⟨.createRecord, [("table", .string table)]⟩

/-- An engine with three rules, of which the second also sends an email. -/
def completing : Engine (List Handoff) where
  rules := [onCompletion "transcript" [filing "transcripts"],
    onCompletion "certificate"
      [filing "certificates", ⟨.email, [("to", .string "a@x.com"), ("subject", .string "Done")]⟩],
    onCompletion "survey" [filing "surveys"]]
  supply := ⟨fun _ => ⟨⟨60, 0⟩, 0⟩, fun _ => "0", 0, 0⟩
  outside := []

/-- Collaborators of whom no email gets through. -/
def mailless : Behaviour (List Handoff) :=
  recording fun handoff =>
    match handoff with
    | .email _ => .error (.handlerFailed "smtp unavailable")
    | _ => .ok .done

omit behaves in
/-- A rule between two others fails at its second action. All hand over what they have, and the
other two run. -/
theorem completion_dispatches :
    let collaborators := Collaborators.following false mailless
    let after := (completing.trigger collaborators "course_completed" .null).2
    (completing.trigger collaborators "course_completed" .null).1 = ["transcript", "survey"] ∧
      after.outside = [.createRecord ⟨"transcripts", []⟩, .createRecord ⟨"certificates", []⟩,
        .email ⟨"a@x.com", "Done", none, []⟩, .createRecord ⟨"surveys", []⟩] ∧
      List.Forall₂ (fun old new =>
          if old.id ∈ ["transcript", "survey"] then old.Counted ⟨60, 0⟩ new else new = old)
        completing.rules after.rules := by
  intro collaborators after
  have distinct : Distinct completing.rules := by
    unfold Distinct
    decide +kernel
  obtain ⟨ids, _, outside, _, rules⟩ := trigger_dispatches_listeners
    (Collaborators.following_behaves false mailless) completing distinct "course_completed" .null
  have reported :
      (completing.trigger collaborators "course_completed" .null).1 = ["transcript", "survey"] :=
    ids.trans (by decide +kernel)
  refine ⟨reported, outside.trans (by decide +kernel), ?_⟩
  rw [← reported]
  exact rules

end Engine
end CampusRules
