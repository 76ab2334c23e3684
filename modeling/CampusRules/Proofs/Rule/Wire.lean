import CampusRules.Proofs.Json.Record
import CampusRules.Proofs.Time.Timestamp
import CampusRules.Rule.Wire

/-!
# Written rules read back

A rule is legible if everything in it has a text of its own: an operator or a frequency is the one
with its name, values are ordered, and times are such as a clock can show. The written form of a
legible rule reads as that rule, part by part.
-/

namespace CampusRules

open Json (Raw ok_bind)
open Json.Field (check_of)
open Json.Record (fields_ofValue required_written defaulted_written defaulted_optional written)

/-- An optional member is there if its value is. -/
theorem mem_optionalMember {α : Type} {key : String} {write : α → Json} {value : Option α}
    {member : String × Json} :
    member ∈ optionalMember key write value ↔
      ∃ present ∈ value, member = (key, write present) := by
  cases value <;> simp [optionalMember]

/-- The name of an operator that is the one with its name reads as that operator. -/
theorem Operator.read_ofValue {operator : Operator}
    (named : Operator.ofText operator.text = operator) :
    Operator.read (.ofValue (.string operator.text)) = .ok operator :=
  congrArg Except.ok named

/-- The name of a frequency that is the one with its name reads as that frequency. -/
theorem Frequency.read_ofValue {frequency : Frequency}
    (named : Frequency.ofText frequency.text = frequency) :
    Frequency.read (.ofValue (.string frequency.text)) = .ok frequency :=
  congrArg Except.ok named

/-- The name of a combinator reads as that combinator. -/
theorem Combinator.read_ofValue (combinator : Combinator) :
    Combinator.read (.ofValue (.string combinator.text)) = .ok combinator := by
  cases combinator <;> rfl

/-- The name of a kind of action reads as that kind. -/
theorem ActionKind.read_ofValue (kind : ActionKind) :
    ActionKind.read (.ofValue (.string kind.text)) = .ok kind := by
  cases kind <;> rfl

/-- A time that a clock can show reads back. -/
theorem Instant.read_ofValue {instant : Instant} (time : instant.IsTime) :
    Instant.read (.ofValue instant.toJson) = .ok instant := by
  have parsed := Timestamp.parse?_write time
  have text : Raw.readText (.ofValue instant.toJson) = .ok (Timestamp.write instant) := rfl
  rw [Instant.read, text, ok_bind, parsed]

/-- A byte reads back. -/
theorem readUInt8_ofValue (byte : UInt8) :
    Raw.readUInt8 (.ofValue (.number (.ofUInt8 byte))) = .ok byte := by
  have small := byte.toNat_lt
  have fits : (Number.ofUInt8 byte).toUInt8? = some byte := by
    rw [Number.ofUInt8, Number.toUInt8?, if_pos (by omega), Int.toNat_natCast, UInt8.ofNat_toNat]
  rw [Raw.ofValue, Raw.readUInt8, fits]

/-- A word reads back. -/
theorem readUInt64_ofValue (word : UInt64) :
    Raw.readUInt64 (.ofValue (.number (.ofUInt64 word))) = .ok word := by
  have fits : (Number.ofUInt64 word).toUInt64? = some word := by
    rw [Number.ofUInt64, Number.toUInt64?, if_pos (by omega), Int.toNat_natCast,
      UInt64.ofNat_toNat]
  rw [Raw.ofValue, Raw.readUInt64, fits]

/-- A condition that has a text of its own. -/
structure Condition.Legible (condition : Condition) : Prop where
  operator : Operator.ofText condition.operator.text = condition.operator
  value : condition.value.Ordered

/-- An action that has a text of its own. -/
def Action.Legible (action : Action) : Prop := (Json.object action.parameters).Ordered

/-- Whether a trigger has a text of its own. -/
def Trigger.Legible : Trigger → Prop
  | .event _ => True
  | .schedule frequency _ _ _ => Frequency.ofText frequency.text = frequency
  | .condition _ operator value => Operator.ofText operator.text = operator ∧ value.Ordered

/-- A rule that has a text of its own. -/
structure Rule.Legible (rule : Rule) : Prop where
  trigger : rule.trigger.Legible
  conditions : ∀ condition ∈ rule.conditions, condition.Legible
  actions : ∀ action ∈ rule.actions, action.Legible
  createdAt : rule.createdAt.IsTime
  lastExecuted : ∀ time ∈ rule.lastExecuted, time.IsTime

/-- A legible condition reads back. -/
theorem Condition.read_ofValue {condition : Condition} (legible : condition.Legible) :
    Condition.read (.ofValue condition.toJson) = .ok condition := by
  have fieldRead : Raw.readText (.ofValue (.string condition.field)) = .ok condition.field := rfl
  have operatorRead := Operator.read_ofValue legible.operator
  have valueRead := Raw.readValue_ofValue legible.value
  have nextRead : ∀ combinator : Combinator, Raw.readOptional Combinator.read
      (.ofValue (.string combinator.text)) = .ok (some combinator) :=
    fun combinator => Raw.readOptional_ofValue combinator.read_ofValue nofun
  have distinct : (condition.toJson.members.map Prod.fst).Nodup := by
    unfold toJson optionalMember
    split <;> simp [Json.members]
  have checked : ∀ member ∈ condition.toJson.members, ∃ field,
      fields.find? (·.key == member.1) = some field ∧ field.check (.ofValue member.2) = .ok () := by
    intro member among
    rcases List.mem_append.mp among with among | among
    · simp only [List.mem_cons, List.not_mem_nil, or_false] at among
      rcases among with rfl | rfl | rfl
      · exact ⟨_, rfl, check_of _ fieldRead⟩
      · exact ⟨_, rfl, check_of _ operatorRead⟩
      · exact ⟨_, rfl, check_of _ valueRead⟩
    · obtain ⟨combinator, _, rfl⟩ := mem_optionalMember.mp among
      exact ⟨_, rfl, check_of _ (nextRead combinator)⟩
  have nextFound : Json.Record.defaulted (written condition.toJson.members) "logicalOperator"
      (Raw.readOptional Combinator.read) none = .ok condition.next := by
    refine defaulted_optional ?_ fun combinator _ => nextRead combinator
    obtain ⟨field, operator, value, next⟩ := condition
    cases next <;> rfl
  have shape : condition.toJson = .object condition.toJson.members := rfl
  rw [Condition.read, shape, fields_ofValue distinct checked, ok_bind,
    required_written rfl fieldRead, ok_bind, required_written rfl operatorRead, ok_bind,
    defaulted_written rfl valueRead, ok_bind, nextFound]
  rfl

/-- A legible action reads back. -/
theorem Action.read_ofValue {action : Action} (legible : action.Legible) :
    Action.read (.ofValue action.toJson) = .ok action := by
  have kindRead := action.kind.read_ofValue
  have parametersRead := Raw.readMembers_ofValue legible
  have distinct : (action.toJson.members.map Prod.fst).Nodup := by
    simp [toJson, Json.members]
  have checked : ∀ member ∈ action.toJson.members, ∃ field,
      fields.find? (·.key == member.1) = some field ∧ field.check (.ofValue member.2) = .ok () := by
    intro member among
    simp only [toJson, Json.members, List.mem_cons, List.not_mem_nil, or_false] at among
    rcases among with rfl | rfl
    · exact ⟨_, rfl, check_of _ kindRead⟩
    · exact ⟨_, rfl, check_of _ parametersRead⟩
  have shape : action.toJson = .object action.toJson.members := rfl
  rw [Action.read, shape, fields_ofValue distinct checked, ok_bind,
    required_written rfl kindRead, ok_bind, defaulted_written rfl parametersRead]
  rfl

namespace Trigger

/-- Once the kind is found, ordered members under other keys are left as they are. -/
theorem splitKind_others (kind : Kind) {members : Members}
    (others : ∀ member ∈ members, member.1 ≠ "type") (ordered : Json.OrderedMembers members) :
    splitKind true (some kind) (Raw.ofMembers members) = .ok (kind, Raw.ofMembers members) := by
  induction members with
  | nil => rfl
  | cons member members inductionHypothesis =>
    obtain ⟨key, value⟩ := member
    have other : key ≠ "type" := others (key, value) List.mem_cons_self
    have rest :=
      inductionHypothesis (fun member among => others member (List.mem_cons_of_mem _ among))
      ordered.2
    rw [Raw.ofMembers, splitKind, if_neg other, Raw.readValue_ofValue ordered.1, ok_bind, rest]
    rfl

/-- A trigger that is written with its kind first is read by the fields of that kind. -/
theorem read_kind {name : String} {kind : Kind} {members : Members}
    (named : Kind.ofText? name = some kind) (others : ∀ member ∈ members, member.1 ≠ "type")
    (ordered : Json.OrderedMembers members) :
    Trigger.read (.ofValue (.object (("type", .string name) :: members))) =
      readKind kind (.ofValue (.object members)) := by
  have kindRead : Kind.read (.ofValue (.string name)) = .ok kind := by
    have text : Raw.readText (.ofValue (.string name)) = .ok name := rfl
    rw [Kind.read, text, ok_bind, named]
  have split : splitKind true none (Raw.ofMembers (("type", .string name) :: members)) =
      .ok (kind, Raw.ofMembers members) := by
    rw [Raw.ofMembers, splitKind, if_pos rfl, kindRead, ok_bind,
      splitKind_others kind others ordered]
  rw [Raw.ofValue, Trigger.read, split, ok_bind]
  rfl

/-- The fields of an event trigger read back. -/
theorem readKind_event (name : String) :
    readKind .event (.ofValue (.object [("eventName", .string name)])) = .ok (.event name) := by
  have nameRead : Raw.readText (.ofValue (.string name)) = .ok name := rfl
  have checked : ∀ member ∈ [("eventName", Json.string name)], ∃ field,
      eventFields.find? (·.key == member.1) = some field ∧
        field.check (.ofValue member.2) = .ok () := by
    intro member among
    obtain rfl := List.mem_singleton.mp among
    exact ⟨_, rfl, check_of _ nameRead⟩
  rw [readKind, fields_ofValue (by simp) checked, ok_bind,
    required_written rfl nameRead, ok_bind]

/-- The fields of a schedule read back. -/
theorem readKind_schedule {frequency : Frequency} (time : String)
    (dayOfWeek dayOfMonth : Option UInt8)
    (named : Frequency.ofText frequency.text = frequency) :
    readKind .schedule (.ofValue (.object
        ([("frequency", .string frequency.text), ("time", .string time)] ++
          optionalMember "dayOfWeek" (fun day => .number (.ofUInt8 day)) dayOfWeek ++
          optionalMember "dayOfMonth" (fun day => .number (.ofUInt8 day)) dayOfMonth))) =
      .ok (.schedule frequency time dayOfWeek dayOfMonth) := by
  have frequencyRead := Frequency.read_ofValue named
  have timeRead : Raw.readText (.ofValue (.string time)) = .ok time := rfl
  have dayRead : ∀ day, Raw.readOptional Raw.readUInt8 (.ofValue (.number (.ofUInt8 day))) =
      .ok (some day) := fun day => Raw.readOptional_ofValue (readUInt8_ofValue day) nofun
  generalize all : [("frequency", Json.string frequency.text), ("time", .string time)] ++
    optionalMember "dayOfWeek" (fun day => .number (.ofUInt8 day)) dayOfWeek ++
    optionalMember "dayOfMonth" (fun day => .number (.ofUInt8 day)) dayOfMonth = members
  have distinct : (members.map Prod.fst).Nodup := by
    rw [← all]
    unfold optionalMember
    split <;> split <;> simp
  have checked : ∀ member ∈ members, ∃ field,
      scheduleFields.find? (·.key == member.1) = some field ∧
        field.check (.ofValue member.2) = .ok () := by
    intro member among
    rw [← all] at among
    rcases List.mem_append.mp among with among | among
    · rcases List.mem_append.mp among with among | among
      · simp only [List.mem_cons, List.not_mem_nil, or_false] at among
        rcases among with rfl | rfl
        · exact ⟨_, rfl, check_of _ frequencyRead⟩
        · exact ⟨_, rfl, check_of _ timeRead⟩
      · obtain ⟨day, _, rfl⟩ := mem_optionalMember.mp among
        exact ⟨_, rfl, check_of _ (dayRead day)⟩
    · obtain ⟨day, _, rfl⟩ := mem_optionalMember.mp among
      exact ⟨_, rfl, check_of _ (dayRead day)⟩
  have frequencyFound : Json.Record.required (written members) "frequency" Frequency.read =
      .ok frequency := by
    rw [← all]
    exact required_written rfl frequencyRead
  have timeFound : Json.Record.required (written members) "time" Raw.readText = .ok time := by
    rw [← all]
    exact required_written rfl timeRead
  have weekFound : Json.Record.defaulted (written members) "dayOfWeek"
      (Raw.readOptional Raw.readUInt8) none = .ok dayOfWeek := by
    refine defaulted_optional ?_ fun day _ => dayRead day
    rw [← all]
    cases dayOfWeek <;> cases dayOfMonth <;> rfl
  have monthFound : Json.Record.defaulted (written members) "dayOfMonth"
      (Raw.readOptional Raw.readUInt8) none = .ok dayOfMonth := by
    refine defaulted_optional ?_ fun day _ => dayRead day
    rw [← all]
    cases dayOfWeek <;> cases dayOfMonth <;> rfl
  rw [readKind, fields_ofValue distinct checked, ok_bind, frequencyFound, ok_bind, timeFound,
    ok_bind, weekFound, ok_bind, monthFound, ok_bind]

/-- The fields of a condition trigger read back. -/
theorem readKind_condition (field : String) {operator : Operator} {value : Json}
    (named : Operator.ofText operator.text = operator) (ordered : value.Ordered) :
    readKind .condition (.ofValue (.object
        [("field", .string field), ("operator", .string operator.text), ("value", value)])) =
      .ok (.condition field operator value) := by
  have fieldRead : Raw.readText (.ofValue (.string field)) = .ok field := rfl
  have operatorRead := Operator.read_ofValue named
  have valueRead := Raw.readValue_ofValue ordered
  have checked : ∀ member ∈ [("field", Json.string field), ("operator", .string operator.text),
      ("value", value)], ∃ field, conditionFields.find? (·.key == member.1) = some field ∧
        field.check (.ofValue member.2) = .ok () := by
    intro member among
    simp only [List.mem_cons, List.not_mem_nil, or_false] at among
    rcases among with rfl | rfl | rfl
    · exact ⟨_, rfl, check_of _ fieldRead⟩
    · exact ⟨_, rfl, check_of _ operatorRead⟩
    · exact ⟨_, rfl, check_of _ valueRead⟩
  rw [readKind, fields_ofValue (by simp) checked, ok_bind, required_written rfl fieldRead, ok_bind,
    required_written rfl operatorRead, ok_bind, defaulted_written rfl valueRead, ok_bind]

/-- A legible trigger reads back. -/
theorem read_ofValue {trigger : Trigger} (legible : trigger.Legible) :
    Trigger.read (.ofValue trigger.toJson) = .ok trigger := by
  cases trigger with
  | event name =>
    have others : ∀ member ∈ [("eventName", Json.string name)], member.1 ≠ "type" := by simp
    exact (read_kind rfl others ⟨trivial, trivial⟩).trans (readKind_event name)
  | schedule frequency time dayOfWeek dayOfMonth =>
    refine (read_kind rfl ?_ ?_).trans (readKind_schedule time dayOfWeek dayOfMonth legible)
    · unfold optionalMember
      split <;> split <;> simp
    · unfold optionalMember
      split <;> split <;> simp [Json.OrderedMembers, Json.Ordered]
  | condition field operator value =>
    refine (read_kind rfl ?_ ?_).trans (readKind_condition field legible.1 legible.2)
    · simp
    · exact ⟨trivial, trivial, legible.2, trivial⟩

end Trigger

/-- A legible rule reads back. -/
theorem Rule.read_ofValue {rule : Rule} (legible : rule.Legible) :
    Rule.read (.ofValue rule.toJson) = .ok rule := by
  have textRead : ∀ text, Raw.readText (.ofValue (.string text)) = .ok text := fun _ => rfl
  have triggerRead := Trigger.read_ofValue legible.trigger
  have conditionsRead := Raw.readList_ofValue fun condition among =>
    Condition.read_ofValue (legible.conditions condition among)
  have actionsRead := Raw.readList_ofValue fun action among =>
    Action.read_ofValue (legible.actions action among)
  have activeRead : Raw.readBool (.ofValue (.bool rule.isActive)) = .ok rule.isActive := rfl
  have createdRead := Instant.read_ofValue legible.createdAt
  have executedRead : ∀ time ∈ rule.lastExecuted,
      Raw.readOptional Instant.read (.ofValue time.toJson) = .ok (some time) :=
    fun time among =>
      Raw.readOptional_ofValue (Instant.read_ofValue (legible.lastExecuted time among)) nofun
  have countRead := readUInt64_ofValue rule.executionCount
  have distinct : (rule.toJson.members.map Prod.fst).Nodup := by
    unfold toJson optionalMember
    split <;> simp [Json.members]
  have checked : ∀ member ∈ rule.toJson.members, ∃ field,
      fields.find? (·.key == member.1) = some field ∧ field.check (.ofValue member.2) = .ok () := by
    intro member among
    rcases List.mem_append.mp among with among | among
    · rcases List.mem_append.mp among with among | among
      · simp only [List.mem_cons, List.not_mem_nil, or_false] at among
        rcases among with rfl | rfl | rfl | rfl | rfl | rfl | rfl | rfl
        · exact ⟨_, rfl, check_of _ (textRead _)⟩
        · exact ⟨_, rfl, check_of _ (textRead _)⟩
        · exact ⟨_, rfl, check_of _ (textRead _)⟩
        · exact ⟨_, rfl, check_of _ triggerRead⟩
        · exact ⟨_, rfl, check_of _ conditionsRead⟩
        · exact ⟨_, rfl, check_of _ actionsRead⟩
        · exact ⟨_, rfl, check_of _ activeRead⟩
        · exact ⟨_, rfl, check_of _ createdRead⟩
      · obtain ⟨time, present, rfl⟩ := mem_optionalMember.mp among
        exact ⟨_, rfl, check_of _ (executedRead time present)⟩
    · obtain rfl := List.mem_singleton.mp among
      exact ⟨_, rfl, check_of _ countRead⟩
  have executedFound : Json.Record.defaulted (written rule.toJson.members) "lastExecuted"
      (Raw.readOptional Instant.read) none = .ok rule.lastExecuted := by
    refine defaulted_optional ?_ executedRead
    obtain ⟨_, _, _, _, _, _, _, _, lastExecuted, _⟩ := rule
    cases lastExecuted <;> rfl
  have countFound : Json.Record.defaulted (written rule.toJson.members) "executionCount"
      Raw.readUInt64 0 = .ok rule.executionCount := by
    obtain ⟨_, _, _, _, _, _, _, _, lastExecuted, _⟩ := rule
    cases lastExecuted with
    | none => exact defaulted_written rfl countRead 0
    | some _ => exact defaulted_written rfl countRead 0
  have shape : rule.toJson = .object rule.toJson.members := rfl
  rw [Rule.read, shape, fields_ofValue distinct checked, ok_bind,
    required_written rfl (textRead rule.id), ok_bind,
    required_written rfl (textRead rule.name), ok_bind,
    defaulted_written rfl (textRead rule.description), ok_bind,
    required_written rfl triggerRead, ok_bind, defaulted_written rfl conditionsRead, ok_bind,
    required_written rfl actionsRead, ok_bind, defaulted_written rfl activeRead, ok_bind,
    required_written rfl createdRead, ok_bind, executedFound, ok_bind, countFound]
  rfl

end CampusRules
