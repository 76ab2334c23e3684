import CampusRules.Proofs.Rule.Wire

/-!
# What is read is legible

Whatever text a rule, a new rule or a change is read from, all of its parts are legible: a name
stands for the operator or frequency that is read from it, values are ordered, and times are such
as a clock can show. The written form of a rule is nested no deeper than the text it was read
from, as far as that leaves room for the parts that every rule has.
-/

namespace CampusRules

open Json (Raw ok_of_bind ok_of_map)
open Json.Record (read_of_required read_of_defaulted inside_of_fields)

/-- An operator that is read is the one with its name. -/
theorem Operator.named_of_read {tree : Raw} {operator : Operator}
    (done : Operator.read tree = .ok operator) : Operator.ofText operator.text = operator := by
  obtain ⟨name, _, rfl⟩ := ok_of_map done
  rw [Operator.text_ofText]

/-- A frequency that is read is the one with its name. -/
theorem Frequency.named_of_read {tree : Raw} {frequency : Frequency}
    (done : Frequency.read tree = .ok frequency) :
    Frequency.ofText frequency.text = frequency := by
  obtain ⟨name, _, rfl⟩ := ok_of_map done
  rw [Frequency.text_ofText]

/-- A time that is read is one that a clock can show. -/
theorem Instant.isTime_of_read {tree : Raw} {instant : Instant}
    (done : Instant.read tree = .ok instant) : instant.IsTime := by
  obtain ⟨text, _, done⟩ := ok_of_bind done
  split at done
  · rename_i found parsed
    obtain rfl := Except.ok.inj done
    exact Timestamp.isTime_of_parse? parsed
  · cases done

/-- An object is nested within a bound if its values are within one less. -/
theorem depth_object_le {members : Members} {room : Nat}
    (inside : ∀ member ∈ members, member.2.depth ≤ room) :
    (Json.object members).depth ≤ room + 1 :=
  Nat.succ_le_succ (Json.depthMembers_le.mpr inside)

/-- An array is nested within a bound if its items are within one less. -/
theorem depth_array_le {items : List Json} {room : Nat}
    (inside : ∀ item ∈ items, item.depth ≤ room) : (Json.array items).depth ≤ room + 1 :=
  Nat.succ_le_succ (Json.depthItems_le.mpr inside)

/-- A value that is read with `null` as its default is ordered, and within what the record leaves
room for. -/
theorem value_of_defaulted {excess : Json.Refusal} {known : List Json.Field} {tree : Raw}
    {found : Json.Found} (fields : Json.Record.fields excess known tree = .ok found)
    {key : String} {value : Json}
    (done : Json.Record.defaulted found key Raw.readValue .null = .ok value) :
    value.Ordered ∧ ∀ room, tree.Within (room + 1) → value.depth ≤ room := by
  rcases read_of_defaulted done with ⟨item, here, read⟩ | rfl
  · have sound := Raw.value?_of_readValue read
    refine ⟨Raw.ordered_value? sound, ?_⟩
    intro room within
    exact Raw.depth_value? (inside_of_fields fields here room within) sound
  · exact ⟨trivial, fun room _ => Nat.zero_le room⟩

/-- A condition that is read is legible, and nested no deeper than its text. -/
theorem Condition.of_read {tree : Raw} {condition : Condition}
    (done : Condition.read tree = .ok condition) :
    condition.Legible ∧ ∀ room, tree.Within (room + 1) → condition.toJson.depth ≤ room + 1 := by
  obtain ⟨found, fields, done⟩ := ok_of_bind done
  obtain ⟨field, _, done⟩ := ok_of_bind done
  obtain ⟨operator, operatorRead, done⟩ := ok_of_bind done
  obtain ⟨value, valueRead, done⟩ := ok_of_bind done
  obtain ⟨next, _, done⟩ := ok_of_bind done
  obtain rfl := Except.ok.inj done
  obtain ⟨_, _, named⟩ := read_of_required operatorRead
  obtain ⟨ordered, bounded⟩ := value_of_defaulted fields valueRead
  refine ⟨⟨Operator.named_of_read named, ordered⟩, ?_⟩
  intro room within
  refine depth_object_le ?_
  intro member among
  rcases List.mem_append.mp among with among | among
  · simp only [List.mem_cons, List.not_mem_nil, or_false] at among
    rcases among with rfl | rfl | rfl
    · exact Nat.zero_le room
    · exact Nat.zero_le room
    · exact bounded room within
  · obtain ⟨combinator, _, rfl⟩ := mem_optionalMember.mp among
    exact Nat.zero_le room

/-- An action that is read is legible, and nested no deeper than its text, if that leaves room for
parameters. -/
theorem Action.of_read {tree : Raw} {action : Action} (done : Action.read tree = .ok action) :
    action.Legible ∧ ∀ room, tree.Within (room + 2) → action.toJson.depth ≤ room + 2 := by
  obtain ⟨found, fields, done⟩ := ok_of_bind done
  obtain ⟨kind, _, done⟩ := ok_of_bind done
  obtain ⟨parameters, parametersRead, done⟩ := ok_of_bind done
  obtain rfl := Except.ok.inj done
  have inside : (Json.object parameters).Ordered ∧
      ∀ room, tree.Within (room + 2) → (Json.object parameters).depth ≤ room + 1 := by
    rcases read_of_defaulted parametersRead with ⟨item, here, read⟩ | rfl
    · have sound := Raw.value?_of_readMembers read
      refine ⟨Raw.ordered_value? sound, ?_⟩
      intro room within
      exact Raw.depth_value? (inside_of_fields fields here (room + 1) within) sound
    · refine ⟨⟨List.Pairwise.nil, trivial⟩, ?_⟩
      intro room _
      exact depth_object_le fun _ among => absurd among List.not_mem_nil
  refine ⟨inside.1, ?_⟩
  intro room within
  refine depth_object_le ?_
  intro member among
  simp only [List.mem_cons, List.not_mem_nil, or_false] at among
  rcases among with rfl | rfl
  · exact Nat.zero_le (room + 1)
  · exact inside.2 room within

namespace Trigger

/-- A trigger whose kind is known is read as a legible one, nested no deeper than its text. -/
theorem of_readKind {kind : Kind} {tree : Raw} {trigger : Trigger}
    (done : readKind kind tree = .ok trigger) :
    trigger.Legible ∧ ∀ room, tree.Within (room + 1) → trigger.toJson.depth ≤ room + 1 := by
  cases kind with
  | event =>
    obtain ⟨found, fields, done⟩ := ok_of_bind done
    obtain ⟨name, _, done⟩ := ok_of_bind done
    obtain rfl := Except.ok.inj done
    refine ⟨trivial, fun room _ => depth_object_le ?_⟩
    intro member among
    simp only [List.mem_cons, List.not_mem_nil, or_false] at among
    rcases among with rfl | rfl
    · exact Nat.zero_le room
    · exact Nat.zero_le room
  | schedule =>
    obtain ⟨found, fields, done⟩ := ok_of_bind done
    obtain ⟨frequency, frequencyRead, done⟩ := ok_of_bind done
    obtain ⟨time, _, done⟩ := ok_of_bind done
    obtain ⟨dayOfWeek, _, done⟩ := ok_of_bind done
    obtain ⟨dayOfMonth, _, done⟩ := ok_of_bind done
    obtain rfl := Except.ok.inj done
    obtain ⟨_, _, named⟩ := read_of_required frequencyRead
    refine ⟨Frequency.named_of_read named, fun room _ => depth_object_le ?_⟩
    intro member among
    rcases List.mem_append.mp among with among | among
    · rcases List.mem_append.mp among with among | among
      · simp only [List.mem_cons, List.not_mem_nil, or_false] at among
        rcases among with rfl | rfl | rfl
        · exact Nat.zero_le room
        · exact Nat.zero_le room
        · exact Nat.zero_le room
      · obtain ⟨day, _, rfl⟩ := mem_optionalMember.mp among
        exact Nat.zero_le room
    · obtain ⟨day, _, rfl⟩ := mem_optionalMember.mp among
      exact Nat.zero_le room
  | condition =>
    obtain ⟨found, fields, done⟩ := ok_of_bind done
    obtain ⟨field, _, done⟩ := ok_of_bind done
    obtain ⟨operator, operatorRead, done⟩ := ok_of_bind done
    obtain ⟨value, valueRead, done⟩ := ok_of_bind done
    obtain rfl := Except.ok.inj done
    obtain ⟨_, _, named⟩ := read_of_required operatorRead
    obtain ⟨ordered, bounded⟩ := value_of_defaulted fields valueRead
    refine ⟨⟨Operator.named_of_read named, ordered⟩, ?_⟩
    intro room within
    refine depth_object_le ?_
    intro member among
    simp only [List.mem_cons, List.not_mem_nil, or_false] at among
    rcases among with rfl | rfl | rfl | rfl
    · exact Nat.zero_le room
    · exact Nat.zero_le room
    · exact Nat.zero_le room
    · exact bounded room within

/-- The members other than the kind are among the members. -/
theorem mem_of_splitKind {ended : Bool} {found : Option Kind}
    {members others : List (Json.Key × Raw)} {kind : Kind}
    (done : splitKind ended found members = .ok (kind, others))
    {member : Json.Key × Raw} (among : member ∈ others) : member ∈ members := by
  induction members generalizing found others with
  | nil =>
    cases found with
    | none => cases done
    | some known =>
      rw [splitKind] at done
      split at done
      · obtain ⟨_, rfl⟩ := Prod.mk.inj (Except.ok.inj done)
        cases among
      · cases done
  | cons first members inductionHypothesis =>
    obtain ⟨key | _, tree⟩ := first
    · have kept : ∀ found,
          (tree.readValue >>= fun _ => splitKind ended found members >>= fun split =>
            .ok (split.1, (.text key, tree) :: split.2)) = Except.ok (kind, others) →
          member ∈ (Json.Key.text key, tree) :: members := by
        intro found done
        obtain ⟨_, _, done⟩ := ok_of_bind done
        obtain ⟨⟨known, rest⟩, behind, done⟩ := ok_of_bind done
        obtain ⟨rfl, rfl⟩ := Prod.mk.inj (Except.ok.inj done)
        rcases List.mem_cons.mp among with rfl | later
        · exact List.mem_cons_self
        · exact List.mem_cons_of_mem _ (inductionHypothesis behind later)
      cases found with
      | none =>
        rw [splitKind] at done
        split at done
        · obtain ⟨known, _, done⟩ := ok_of_bind done
          exact List.mem_cons_of_mem _ (inductionHypothesis done among)
        · exact kept none done
      | some known =>
        rw [splitKind] at done
        split at done
        · cases done
        · exact kept (some known) done
    · cases found <;> cases done

/-- A trigger that is read is legible, and nested no deeper than its text. -/
theorem of_read {tree : Raw} {trigger : Trigger} (done : Trigger.read tree = .ok trigger) :
    trigger.Legible ∧ ∀ room, tree.Within (room + 1) → trigger.toJson.depth ≤ room + 1 := by
  unfold Trigger.read at done
  split at done
  · rename_i members ended
    obtain ⟨⟨kind, others⟩, split, done⟩ := ok_of_bind done
    obtain ⟨legible, bounded⟩ := of_readKind done
    refine ⟨legible, fun room within => bounded room (Raw.withinMembers_iff.mpr ?_)⟩
    intro member among
    exact Raw.withinMembers_iff.mp within member (mem_of_splitKind split among)
  · cases done
  · obtain ⟨kind, _, done⟩ := ok_of_bind done
    split at done
    · obtain ⟨legible, bounded⟩ := of_readKind done
      exact ⟨legible, fun room within => bounded room within.2⟩
    · cases done
  all_goals cases done

end Trigger

/-- Conditions that are read are legible, and nested less deep than the text of their list. -/
theorem conditions_of_read {tree : Raw} {conditions : List Condition}
    (done : Raw.readList Condition.read tree = .ok conditions) {condition : Condition}
    (member : condition ∈ conditions) :
    condition.Legible ∧ ∀ room, tree.Within (room + 2) → condition.toJson.depth ≤ room + 1 := by
  obtain ⟨item, inside, read⟩ := Raw.inside_of_readList done member
  obtain ⟨legible, bounded⟩ := Condition.of_read read
  exact ⟨legible, fun room within => bounded room (inside (room + 1) within)⟩

/-- Actions that are read are legible, and nested less deep than the text of their list. -/
theorem actions_of_read {tree : Raw} {actions : List Action}
    (done : Raw.readList Action.read tree = .ok actions) {action : Action}
    (member : action ∈ actions) :
    action.Legible ∧ ∀ room, tree.Within (room + 3) → action.toJson.depth ≤ room + 2 := by
  obtain ⟨item, inside, read⟩ := Raw.inside_of_readList done member
  obtain ⟨legible, bounded⟩ := Action.of_read read
  exact ⟨legible, fun room within => bounded room (inside (room + 2) within)⟩

/-- Conditions that may be left out of a record are legible, and nested less deep than the text of
the record. -/
theorem conditions_of_defaulted {excess : Json.Refusal} {known : List Json.Field} {tree : Raw}
    {found : Json.Found} (fields : Json.Record.fields excess known tree = .ok found) {key : String}
    {conditions : List Condition}
    (done : Json.Record.defaulted found key (Raw.readList Condition.read) [] = .ok conditions)
    {condition : Condition} (member : condition ∈ conditions) :
    condition.Legible ∧ ∀ room, tree.Within (room + 3) → condition.toJson.depth ≤ room + 1 := by
  rcases read_of_defaulted done with ⟨item, here, read⟩ | rfl
  · obtain ⟨legible, bounded⟩ := conditions_of_read read member
    exact ⟨legible, fun room within =>
      bounded room (inside_of_fields fields here (room + 2) within)⟩
  · cases member

/-- Actions that a record must have are legible, and nested less deep than the text of the
record. -/
theorem actions_of_required {excess : Json.Refusal} {known : List Json.Field} {tree : Raw}
    {found : Json.Found} (fields : Json.Record.fields excess known tree = .ok found) {key : String}
    {actions : List Action}
    (done : Json.Record.required found key (Raw.readList Action.read) = .ok actions)
    {action : Action} (member : action ∈ actions) :
    action.Legible ∧ ∀ room, tree.Within (room + 4) → action.toJson.depth ≤ room + 2 := by
  obtain ⟨item, here, read⟩ := read_of_required done
  obtain ⟨legible, bounded⟩ := actions_of_read read member
  exact ⟨legible, fun room within =>
    bounded room (inside_of_fields fields here (room + 3) within)⟩

/-- A rule is nested one deeper than its trigger, and two deeper than its conditions and actions,
or as deep as the parts that every rule has. -/
theorem Rule.depth_le {rule : Rule} {room : Nat} (trigger : rule.trigger.toJson.depth ≤ room + 1)
    (conditions : ∀ condition ∈ rule.conditions, condition.toJson.depth ≤ room)
    (actions : ∀ action ∈ rule.actions, action.toJson.depth ≤ room) :
    rule.toJson.depth ≤ room + 2 := by
  refine depth_object_le ?_
  intro member among
  rcases List.mem_append.mp among with among | among
  · rcases List.mem_append.mp among with among | among
    · simp only [List.mem_cons, List.not_mem_nil, or_false] at among
      rcases among with rfl | rfl | rfl | rfl | rfl | rfl | rfl | rfl
      · exact Nat.zero_le _
      · exact Nat.zero_le _
      · exact Nat.zero_le _
      · exact trigger
      · refine depth_array_le ?_
        intro item among
        obtain ⟨condition, member, rfl⟩ := List.mem_map.mp among
        exact conditions condition member
      · refine depth_array_le ?_
        intro item among
        obtain ⟨action, member, rfl⟩ := List.mem_map.mp among
        exact actions action member
      · exact Nat.zero_le _
      · exact Nat.zero_le _
    · obtain ⟨time, _, rfl⟩ := mem_optionalMember.mp among
      exact Nat.zero_le _
  · obtain rfl := List.mem_singleton.mp among
    exact Nat.zero_le _

/-- A rule that is read is legible, and nested no deeper than its text, if that leaves room for
the parts that every rule has. -/
theorem Rule.of_read {tree : Raw} {rule : Rule} (done : Rule.read tree = .ok rule) :
    rule.Legible ∧ ∀ room, tree.Within (room + 4) → rule.toJson.depth ≤ room + 4 := by
  obtain ⟨found, fields, done⟩ := ok_of_bind done
  obtain ⟨id, _, done⟩ := ok_of_bind done
  obtain ⟨name, _, done⟩ := ok_of_bind done
  obtain ⟨description, _, done⟩ := ok_of_bind done
  obtain ⟨trigger, triggerRead, done⟩ := ok_of_bind done
  obtain ⟨conditions, conditionsRead, done⟩ := ok_of_bind done
  obtain ⟨actions, actionsRead, done⟩ := ok_of_bind done
  obtain ⟨isActive, _, done⟩ := ok_of_bind done
  obtain ⟨createdAt, createdRead, done⟩ := ok_of_bind done
  obtain ⟨lastExecuted, executedRead, done⟩ := ok_of_bind done
  obtain ⟨executionCount, _, done⟩ := ok_of_bind done
  obtain rfl := Except.ok.inj done
  obtain ⟨triggerTree, triggerHere, triggerRead⟩ := read_of_required triggerRead
  obtain ⟨triggerLegible, triggerBounded⟩ := Trigger.of_read triggerRead
  have createdTime : createdAt.IsTime := by
    obtain ⟨_, _, read⟩ := read_of_required createdRead
    exact Instant.isTime_of_read read
  have executedTime : ∀ time ∈ lastExecuted, time.IsTime := by
    intro time present
    rcases read_of_defaulted executedRead with ⟨_, _, read⟩ | rfl
    · exact Instant.isTime_of_read (Raw.read_of_readOptional read present)
    · cases present
  refine ⟨⟨triggerLegible, ?_, ?_, createdTime, executedTime⟩, ?_⟩
  · intro condition member
    exact (conditions_of_defaulted fields conditionsRead member).1
  · intro action member
    exact (actions_of_required fields actionsRead member).1
  · intro room within
    refine Rule.depth_le ?_ ?_ ?_
    · exact triggerBounded (room + 2) (inside_of_fields fields triggerHere (room + 3) within)
    · intro condition member
      exact (conditions_of_defaulted fields conditionsRead member).2 (room + 1) within
    · intro action member
      exact (actions_of_required fields actionsRead member).2 room within

/-- A rule to be registered whose parts have texts of their own. -/
structure NewRule.Legible (new : NewRule) : Prop where
  trigger : new.trigger.Legible
  conditions : ∀ condition ∈ new.conditions, condition.Legible
  actions : ∀ action ∈ new.actions, action.Legible

/-- A change whose parts have texts of their own. -/
structure RuleChange.Legible (change : RuleChange) : Prop where
  trigger : ∀ trigger ∈ change.trigger, trigger.Legible
  conditions : ∀ conditions ∈ change.conditions, ∀ condition ∈ conditions, condition.Legible
  actions : ∀ actions ∈ change.actions, ∀ action ∈ actions, action.Legible

/-- A rule to be registered that is read is legible. -/
theorem NewRule.legible_of_read {tree : Raw} {new : NewRule} (done : NewRule.read tree = .ok new) :
    new.Legible := by
  obtain ⟨found, fields, done⟩ := ok_of_bind done
  obtain ⟨id, _, done⟩ := ok_of_bind done
  obtain ⟨name, _, done⟩ := ok_of_bind done
  obtain ⟨description, _, done⟩ := ok_of_bind done
  obtain ⟨trigger, triggerRead, done⟩ := ok_of_bind done
  obtain ⟨conditions, conditionsRead, done⟩ := ok_of_bind done
  obtain ⟨actions, actionsRead, done⟩ := ok_of_bind done
  obtain ⟨isActive, _, done⟩ := ok_of_bind done
  obtain rfl := Except.ok.inj done
  constructor
  case trigger =>
    obtain ⟨_, _, read⟩ := read_of_required triggerRead
    exact (Trigger.of_read read).1
  case conditions =>
    intro condition member
    exact (conditions_of_defaulted fields conditionsRead member).1
  case actions =>
    intro action member
    exact (actions_of_required fields actionsRead member).1

/-- A change that is read is legible. -/
theorem RuleChange.legible_of_read {tree : Raw} {change : RuleChange}
    (done : RuleChange.read tree = .ok change) : change.Legible := by
  obtain ⟨found, fields, done⟩ := ok_of_bind done
  obtain ⟨name, _, done⟩ := ok_of_bind done
  obtain ⟨description, _, done⟩ := ok_of_bind done
  obtain ⟨trigger, triggerRead, done⟩ := ok_of_bind done
  obtain ⟨conditions, conditionsRead, done⟩ := ok_of_bind done
  obtain ⟨actions, actionsRead, done⟩ := ok_of_bind done
  obtain ⟨isActive, _, done⟩ := ok_of_bind done
  obtain rfl := Except.ok.inj done
  constructor
  case trigger =>
    intro trigger present
    rcases read_of_defaulted triggerRead with ⟨_, _, read⟩ | rfl
    · exact (Trigger.of_read (Raw.read_of_readOptional read present)).1
    · cases present
  case conditions =>
    intro conditions present condition member
    rcases read_of_defaulted conditionsRead with ⟨_, _, read⟩ | rfl
    · exact (conditions_of_read (Raw.read_of_readOptional read present) member).1
    · cases present
  case actions =>
    intro actions present action member
    rcases read_of_defaulted actionsRead with ⟨_, _, read⟩ | rfl
    · exact (actions_of_read (Raw.read_of_readOptional read present) member).1
    · cases present

/-- The rule that a legible request asks for is legible, if the clock shows a time. -/
theorem Rule.legible_ofNew {new : NewRule} (legible : new.Legible) (fresh : String)
    {now : Instant} (time : now.IsTime) : (Rule.ofNew new fresh now).Legible :=
  ⟨legible.trigger, legible.conditions, legible.actions, time, nofun⟩

/-- A legible change leaves a legible rule so. -/
theorem Rule.Legible.merge {rule : Rule} (legible : rule.Legible) {change : RuleChange}
    (changed : change.Legible) : (rule.merge change).Legible := by
  obtain ⟨name, description, trigger, conditions, actions, isActive⟩ := change
  refine ⟨?_, ?_, ?_, legible.createdAt, legible.lastExecuted⟩
  · cases trigger with
    | none => exact legible.trigger
    | some trigger => exact changed.trigger trigger rfl
  · cases conditions with
    | none => exact legible.conditions
    | some conditions => exact changed.conditions conditions rfl
  · cases actions with
    | none => exact legible.actions
    | some actions => exact changed.actions actions rfl

/-- An execution at a time that a clock can show leaves a legible rule so. -/
theorem Rule.Legible.executed {rule : Rule} (legible : rule.Legible) {time : Instant}
    (shown : time.IsTime) : (rule.executed time).Legible := by
  refine ⟨legible.trigger, legible.conditions, legible.actions, legible.createdAt, ?_⟩
  rintro _ ⟨⟩
  exact shown

end CampusRules
