import CampusRules.Engine.Execution
import CampusRules.Proofs.Template.Pieces

/-!
# What a rule sees of its context

A rule names the parts of a context that it is about: by the fields of its conditions, and by the
tokens in their values and in the parameters of its actions. Two contexts that agree on these paths
are the same to it. Its conditions hold on both or on neither, and its actions hand over the same
messages, whatever else the contexts hold. Only calculations and reports are handed the whole
context.

That a value is put into a text and not looked at again is part of this: a value that reads like a
token names nothing.
-/

namespace CampusRules

namespace Path

/-- Some paths lead to the same values in two contexts, or to none in both. -/
def AgreeOn (paths : List String) (first second : Json) : Prop :=
  ∀ path ∈ paths, get? path first = get? path second

variable {paths more : List String} {first second : Json}

/-- Agreement on more paths is agreement on some of them. -/
theorem AgreeOn.subset (agree : AgreeOn more first second) (fewer : paths ⊆ more) :
    AgreeOn paths first second :=
  fun path member => agree path (fewer member)

/-- Agreement on the paths of all items is agreement on those of each. -/
theorem AgreeOn.of_mem {α : Type} {items : List α} {pathsOf : α → List String}
    (agree : AgreeOn (items.flatMap pathsOf) first second) {item : α} (member : item ∈ items) :
    AgreeOn (pathsOf item) first second :=
  agree.subset fun _ inside => List.mem_flatMap.mpr ⟨item, member, inside⟩

/-- Agreement on two lists of paths is agreement on each. -/
theorem agreeOn_append :
    AgreeOn (paths ++ more) first second ↔
      AgreeOn paths first second ∧ AgreeOn more first second :=
  List.forall_mem_append

end Path

open CampusRules.Path

namespace Template

variable {first second : Json}

/-- A token is replaced by the text of the value that it leads to, whatever this text looks like,
and nothing before or behind it depends on that. -/
theorem interpolateChars_token {template inner : List Char} {before behind : List Piece}
    {context value : Json} (cut : pieces template = before ++ .token inner :: behind)
    (found : Path.get? (tokenPath inner) context = some value) :
    interpolateChars template context =
      before.flatMap (Piece.render context) ++ value.text ++
        behind.flatMap (Piece.render context) := by
  rw [interpolateChars, cut, List.flatMap_append, List.flatMap_cons, List.append_assoc]
  simp only [Piece.render, found]

/-- A piece contributes the same in contexts that agree on the path it names. -/
theorem render_congr {piece : Piece} (agree : AgreeOn piece.path?.toList first second) :
    piece.render first = piece.render second := by
  cases piece with
  | literal character => rfl
  | token inner =>
    have same := agree (tokenPath inner) (List.mem_singleton_self _)
    simp only [Piece.render, same]

/-- A template reads the same in contexts that agree on the paths it names. -/
theorem interpolateText_congr {template : String}
    (agree : AgreeOn (paths template) first second) :
    interpolateText template first = interpolateText template second := by
  have same : ∀ piece ∈ pieces template.toList, piece.render first = piece.render second := by
    intro piece member
    refine render_congr fun path named => agree path ?_
    exact List.mem_filterMap.mpr ⟨piece, member, Option.mem_toList.mp named⟩
  rw [interpolateText, interpolateText, interpolateChars, interpolateChars, List.flatMap_def,
    List.flatMap_def, List.map_congr_left same]

/-- A value is filled in alike in contexts that agree on the paths it names. -/
theorem interpolate_congr {value : Json} (agree : AgreeOn (valuePaths value) first second) :
    interpolate value first = interpolate value second := by
  cases value with
  | string template => exact congrArg Json.string (interpolateText_congr agree)
  | null | bool | number | array | object => rfl

mutual

/-- A value is filled in alike at any depth, in contexts that agree on the paths in it. -/
theorem interpolateNested_congr : (value : Json) → AgreeOn (nestedPaths value) first second →
    interpolateNested first value = interpolateNested second value
  | .string _, agree => congrArg Json.string (interpolateText_congr agree)
  | .array items, agree => congrArg Json.array (interpolateItems_congr items agree)
  | .object members, agree => congrArg Json.object (interpolateMembers_congr members agree)
  | .null, _ | .bool _, _ | .number _, _ => rfl

/-- The items of a list are filled in alike. -/
theorem interpolateItems_congr : (items : List Json) → AgreeOn (itemPaths items) first second →
    interpolateItems first items = interpolateItems second items
  | [], _ => rfl
  | item :: items, agree => by
    obtain ⟨here, others⟩ := agreeOn_append.mp agree
    rw [interpolateItems, interpolateItems, interpolateNested_congr item here,
      interpolateItems_congr items others]

/-- The members of an object are filled in alike. -/
theorem interpolateMembers_congr : (members : Members) →
    AgreeOn (memberPaths members) first second →
    interpolateMembers first members = interpolateMembers second members
  | [], _ => rfl
  | (key, value) :: members, agree => by
    obtain ⟨here, others⟩ := agreeOn_append.mp agree
    rw [interpolateMembers, interpolateMembers, interpolateNested_congr value here,
      interpolateMembers_congr members others]

end

end Template

open Template

variable {first second : Json}

/-- The paths that a condition names: its field, and those in its value. -/
def Condition.paths (condition : Condition) : List String :=
  condition.field :: valuePaths condition.value

/-- A condition holds on both of two contexts or on neither, if they agree on its paths. -/
theorem Condition.holds_congr {condition : Condition}
    (agree : AgreeOn condition.paths first second) :
    condition.holds first = condition.holds second := by
  have field := agree condition.field List.mem_cons_self
  have value := interpolate_congr (agree.subset (List.subset_cons_self _ _))
  rw [Condition.holds, Condition.holds, field, value]

/-- Conditions that are left hold alike, whatever those before have left as the running result. -/
theorem Conditions.holdFrom_congr (conditions : List Condition) (result : Bool)
    (into : Combinator) (agree : AgreeOn (conditions.flatMap Condition.paths) first second) :
    holdFrom first result into conditions = holdFrom second result into conditions := by
  induction conditions generalizing result into with
  | nil => rfl
  | cons condition rest inductionHypothesis =>
    obtain ⟨here, others⟩ := agreeOn_append.mp agree
    rw [holdFrom, holdFrom, Condition.holds_congr here]
    exact inductionHypothesis _ _ others

namespace Parameters

/-- The paths that a templated text names. -/
def textPaths (parameters : Members) (key : String) : List String :=
  match parameters.lookup key with
  | some value => valuePaths value
  | none => []

/-- The paths that a templated mapping names. -/
def mappingPaths (parameters : Members) (key : String) : List String :=
  match parameters.lookup key with
  | some (.object members) => memberPaths members
  | _ => []

/-- A templated text is filled in alike, or missing from both. -/
theorem text_congr {parameters : Members} {key : String}
    (agree : AgreeOn (textPaths parameters key) first second) :
    text parameters first key = text parameters second key := by
  unfold textPaths at agree
  unfold text
  split
  · rename_i value found
    rw [found] at agree
    rw [interpolate_congr agree]
  · rfl

/-- A templated mapping is filled in alike, or unfit in both. -/
theorem mapping_congr {parameters : Members} {key : String}
    (agree : AgreeOn (mappingPaths parameters key) first second) :
    mapping parameters first key = mapping parameters second key := by
  unfold mappingPaths at agree
  unfold mapping
  split
  · rfl
  · rfl
  · rename_i members found
    rw [found] at agree
    rw [interpolateMembers_congr members agree]
  · rfl

end Parameters

namespace ActionKind

/-- The templated texts of a kind of action. -/
def texts : ActionKind → List String
  | email => ["to", "subject"]
  | notification => ["userId", "title", "message"]
  | aiAction => ["prompt"]
  | updateRecord | createRecord | calculate | generateReport => []

/-- The templated mappings of a kind of action. -/
def mappings : ActionKind → List String
  | email => ["variables"]
  | updateRecord => ["where", "data"]
  | createRecord => ["data"]
  | notification | calculate | generateReport | aiAction => []

/-- Whether a kind of action hands over the whole context. -/
def seesAll : ActionKind → Bool
  | calculate | generateReport => true
  | _ => false

end ActionKind

namespace Action

open Parameters

/-- The paths that the parameters of an action name. -/
def paths (action : Action) : List String :=
  action.kind.texts.flatMap (textPaths action.parameters) ++
    action.kind.mappings.flatMap (mappingPaths action.parameters)

/-- An action hands over the same message in contexts that agree on its paths, or is unfit in the
same way; unless it hands over the context itself. -/
theorem prepare_congr {action : Action} (confined : action.kind.seesAll = false)
    (agree : AgreeOn action.paths first second) :
    action.prepare first = action.prepare second := by
  obtain ⟨kind, parameters⟩ := action
  obtain ⟨texts, mappings⟩ := agreeOn_append.mp agree
  have text (key : String) (member : key ∈ kind.texts) :
      text parameters first key = text parameters second key :=
    text_congr (texts.of_mem member)
  have mapping (key : String) (member : key ∈ kind.mappings) :
      mapping parameters first key = mapping parameters second key :=
    mapping_congr (mappings.of_mem member)
  cases kind with
  | email =>
    simp only [prepare, text "to" (by decide), text "subject" (by decide),
      mapping "variables" (by decide)]
  | notification =>
    simp only [prepare, text "userId" (by decide), text "title" (by decide),
      text "message" (by decide)]
  | updateRecord =>
    simp only [prepare, mapping "where" (by decide), mapping "data" (by decide)]
  | createRecord => simp only [prepare, mapping "data" (by decide)]
  | aiAction => simp only [prepare, text "prompt" (by decide)]
  | calculate | generateReport => cases confined

end Action

/-- The paths that a rule names. -/
def Rule.paths (rule : Rule) : List String :=
  rule.conditions.flatMap Condition.paths ++ rule.actions.flatMap Action.paths

/-- None of the actions of a rule hands over the whole context. -/
def Rule.IsConfined (rule : Rule) : Prop :=
  ∀ action ∈ rule.actions, action.kind.seesAll = false

namespace Engine

variable {σ : Type} (collaborators : Collaborators σ)

/-- An action is carried out alike in contexts that agree on its paths. -/
theorem perform_congr {action : Action} (confined : action.kind.seesAll = false)
    (agree : AgreeOn action.paths first second) (engine : Engine σ) :
    perform collaborators action first engine = perform collaborators action second engine := by
  rw [perform, perform, Action.prepare_congr confined agree]

/-- The actions that are left are carried out alike, up to the same failure if there is one. -/
theorem performFrom_congr (id : String) (index : Nat) (actions : List Action) (engine : Engine σ)
    (confined : ∀ action ∈ actions, action.kind.seesAll = false)
    (agree : AgreeOn (actions.flatMap Action.paths) first second) :
    performFrom collaborators id first index actions engine =
      performFrom collaborators id second index actions engine := by
  induction actions generalizing index engine with
  | nil => rfl
  | cons action rest inductionHypothesis =>
    obtain ⟨here, others⟩ := agreeOn_append.mp agree
    obtain ⟨first_confined, rest_confined⟩ := List.forall_mem_cons.mp confined
    simp only [performFrom, perform_congr collaborators first_confined here,
      inductionHypothesis _ _ rest_confined others]

end Engine

/-- A rule that hands over no context as a whole sees of a context only what it names. In two
contexts that agree on its paths its conditions hold alike, each of its actions hands over the same
message, and carrying them out ends alike, with the same announcements, whoever the collaborators
are. A value is put in the place of a token as it is: what it looks like makes no token of it. -/
theorem rule_sees_named_paths (rule : Rule) (confined : rule.IsConfined) {first second : Json}
    (agree : AgreeOn rule.paths first second) :
    Conditions.hold rule.conditions first = Conditions.hold rule.conditions second ∧
    (∀ action ∈ rule.actions, action.prepare first = action.prepare second) ∧
    (∀ {σ : Type} (collaborators : Collaborators σ) (id : String) (engine : Engine σ),
      Engine.performAll collaborators id rule.actions first engine =
        Engine.performAll collaborators id rule.actions second engine) ∧
    ∀ (template inner : List Char) (before behind : List Piece) (context value : Json),
      pieces template = before ++ .token inner :: behind →
      Path.get? (tokenPath inner) context = some value →
        template = before.flatMap Piece.source ++ (Piece.token inner).source ++
          behind.flatMap Piece.source ∧
        interpolateChars template context =
          before.flatMap (Piece.render context) ++ value.text ++
            behind.flatMap (Piece.render context) := by
  obtain ⟨conditions, actions⟩ := agreeOn_append.mp agree
  refine ⟨Conditions.holdFrom_congr rule.conditions true .and conditions, ?_, ?_, ?_⟩
  · intro action member
    exact Action.prepare_congr (confined action member) (actions.of_mem member)
  · intro σ collaborators id engine
    exact Engine.performFrom_congr collaborators id 0 rule.actions engine confined actions
  · intro template inner before behind context value cut found
    refine ⟨?_, interpolateChars_token cut found⟩
    rw [← source_pieces template, cut, List.flatMap_append, List.flatMap_cons, List.append_assoc]

/-- A rule that writes to students of a term, by the name they have given. -/
def letter : Rule where
  id := "letter"
  name := "Letter"
  description := ""
  trigger := .event "enrolled"
  conditions := [⟨"student.term", .equals, .string "\x7b\x7b term \x7d\x7d", none⟩]
  actions :=
    [⟨.email,
      [("subject", .string "Dear \x7b\x7bstudent.name\x7d\x7d"),
        ("to", .string "\x7b\x7bstudent.address\x7d\x7d"),
        ("variables", .object
          [("names", .array [.string "\x7b\x7bstudent.name\x7d\x7d"])])]⟩]
  isActive := true
  createdAt := ⟨0, 0⟩
  lastExecuted := none
  executionCount := 0

/-- A context with a student whose name is that of a grade which is in the context, too. -/
def curious (grade : String) : Json :=
  .object
    [("grade", .string grade),
      ("student", .object
        [("address", .string "ada"), ("name", .string "\x7b\x7bgrade\x7d\x7d"),
          ("term", .string "spring")]),
      ("term", .string "spring")]

/-- The student is written to by that name, and the letter is the same for every grade. -/
theorem letter_keeps_grade :
    AgreeOn letter.paths (curious "A") (curious "F") ∧ letter.IsConfined ∧
    Conditions.hold letter.conditions (curious "A") = true ∧
    Conditions.hold letter.conditions (curious "F") = true ∧
    (∀ action ∈ letter.actions, (action.prepare (curious "F")).toOption =
      some (.email ⟨"ada", "Dear \x7b\x7bgrade\x7d\x7d", none,
        [("names", .array [.string "\x7b\x7bgrade\x7d\x7d"])]⟩)) ∧
    ∀ {σ : Type} (collaborators : Collaborators σ) (engine : Engine σ),
      Engine.performAll collaborators "letter" letter.actions (curious "A") engine =
        Engine.performAll collaborators "letter" letter.actions (curious "F") engine := by
  obtain ⟨agree, confined, held, prepared⟩ :
      (∀ path ∈ letter.paths, get? path (curious "A") = get? path (curious "F")) ∧
        (∀ action ∈ letter.actions, action.kind.seesAll = false) ∧
        Conditions.hold letter.conditions (curious "A") = true ∧
        ∀ action ∈ letter.actions, (action.prepare (curious "A")).toOption =
          some (.email ⟨"ada", "Dear \x7b\x7bgrade\x7d\x7d", none,
            [("names", .array [.string "\x7b\x7bgrade\x7d\x7d"])]⟩) := by
    decide +kernel
  obtain ⟨alike, messages, performed, _⟩ := rule_sees_named_paths letter confined agree
  refine ⟨agree, confined, held, alike ▸ held, ?_, ?_⟩
  · intro action member
    rw [← messages action member]
    exact prepared action member
  · intro σ collaborators engine
    exact performed collaborators "letter" engine

end CampusRules
