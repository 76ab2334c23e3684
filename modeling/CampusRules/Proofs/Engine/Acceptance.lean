import CampusRules.Proofs.Engine.Sight
import CampusRules.Proofs.Engine.Transcript
import CampusRules.Rule.Validity

/-!
# What accepted actions come to

Which parameters an action must have is looked at when its rule is registered; what the parameters
are is looked at only when the action is carried out. The two agree: whatever a message cannot do
without is required of the action, so an accepted action never lacks a parameter. What remains is
the shape of its mappings. If each of them is absent, `null` or an object, the action hands over
one message, and its outcome is what the collaborator makes of it; otherwise it fails before
anything is handed over.

So with collaborators that never fail, a valid rule whose mappings have that shape is carried out
to its end.
-/

namespace CampusRules

namespace ActionKind

/-- The literals that the message of a kind of action cannot do without. -/
def literals : ActionKind → List String
  | updateRecord | createRecord => ["table"]
  | calculate | aiAction => ["operation"]
  | email | notification | generateReport => []

/-- A text or a literal that a message cannot do without is required. -/
theorem needed_subset_required (kind : ActionKind) :
    kind.texts ++ kind.literals ⊆ kind.required := by
  cases kind <;> decide

end ActionKind

namespace Parameters

variable {parameters : Members} {key : String}

/-- A parameter that is there is no mapping: its value is neither `null` nor an object. -/
structure IsNoMapping (parameters : Members) (key : String) (value : Json) : Prop where
  found : parameters.lookup key = some value
  notNull : value ≠ .null
  notObject : ∀ members, value ≠ .object members

/-- A literal that is there can be taken. -/
theorem literal_of_has (there : parameters.has key = true) :
    ∃ taken, literal parameters key = .ok taken := by
  obtain ⟨value, found⟩ := Option.isSome_iff_exists.mp there
  exact ⟨_, by rw [literal, literal?, found]; rfl⟩

/-- A templated text that is there can be taken. -/
theorem text_of_has (there : parameters.has key = true) (context : Json) :
    ∃ taken, text parameters context key = .ok taken := by
  obtain ⟨value, found⟩ := Option.isSome_iff_exists.mp there
  exact ⟨_, by rw [text, found]⟩

/-- A templated mapping can be taken unless it is none. -/
theorem mapping_of_fit (fit : ∀ value, ¬IsNoMapping parameters key value) (context : Json) :
    ∃ taken, mapping parameters context key = .ok taken := by
  unfold mapping
  split
  · exact ⟨_, rfl⟩
  · exact ⟨_, rfl⟩
  · exact ⟨_, rfl⟩
  · rename_i value isNull isObject found
    exact absurd ⟨found, isNull, isObject⟩ (fit value)

/-- What is no mapping is reported. -/
theorem mapping_of_unfit {value : Json} (unfit : IsNoMapping parameters key value)
    (context : Json) : mapping parameters context key = .error (.notMapping key value) := by
  cases value with
  | null => exact absurd rfl unfit.notNull
  | object members => exact absurd rfl (unfit.notObject members)
  | _ => rw [mapping, unfit.found]

end Parameters

open Parameters

namespace Action

/-- Every mapping of an action is absent, `null` or an object. -/
def IsFit (action : Action) : Prop :=
  ∀ key ∈ action.kind.mappings, ∀ value, ¬IsNoMapping action.parameters key value

/-- An accepted action has the parameters that its message cannot do without. -/
theorem has_of_accepted {action : Action} (accepted : action.flaw? = none) {key : String}
    (needed : key ∈ action.kind.texts ++ action.kind.literals) :
    action.parameters.has key = true := by
  have nothing : action.missing = [] := by
    by_contra missing
    simp [flaw?, missing] at accepted
  have present := List.filter_eq_nil_iff.mp nothing key
    (action.kind.needed_subset_required needed)
  simpa using present

/-- An accepted action whose mappings fit hands over a message. -/
theorem prepare_of_fit {action : Action} (accepted : action.flaw? = none) (fit : action.IsFit)
    (context : Json) : ∃ handoff, action.prepare context = .ok handoff := by
  obtain ⟨kind, parameters⟩ := action
  have text (key : String) (needed : key ∈ kind.texts ++ kind.literals) :=
    text_of_has (has_of_accepted accepted needed) context
  have literal (key : String) (needed : key ∈ kind.texts ++ kind.literals) :=
    literal_of_has (has_of_accepted accepted needed)
  have mapping (key : String) (member : key ∈ kind.mappings) :=
    mapping_of_fit (fit key member) context
  cases kind with
  | email =>
    obtain ⟨recipient, first⟩ := text "to" (by decide)
    obtain ⟨subject, second⟩ := text "subject" (by decide)
    obtain ⟨values, third⟩ := mapping "variables" (by decide)
    exact ⟨_, by simp only [prepare, first, second, third]; rfl⟩
  | notification =>
    obtain ⟨userId, first⟩ := text "userId" (by decide)
    obtain ⟨title, second⟩ := text "title" (by decide)
    obtain ⟨message, third⟩ := text "message" (by decide)
    exact ⟨_, by simp only [prepare, first, second, third]; rfl⟩
  | updateRecord =>
    obtain ⟨table, first⟩ := literal "table" (by decide)
    obtain ⟨filter, second⟩ := mapping "where" (by decide)
    obtain ⟨data, third⟩ := mapping "data" (by decide)
    exact ⟨_, by simp only [prepare, first, second, third]; rfl⟩
  | createRecord =>
    obtain ⟨table, first⟩ := literal "table" (by decide)
    obtain ⟨data, second⟩ := mapping "data" (by decide)
    exact ⟨_, by simp only [prepare, first, second]; rfl⟩
  | calculate =>
    obtain ⟨operation, first⟩ := literal "operation" (by decide)
    exact ⟨_, by simp only [prepare, first]; rfl⟩
  | generateReport => exact ⟨_, rfl⟩
  | aiAction =>
    obtain ⟨operation, first⟩ := literal "operation" (by decide)
    obtain ⟨prompt, second⟩ := text "prompt" (by decide)
    exact ⟨_, by simp only [prepare, first, second]; rfl⟩

/-- An accepted action with a mapping that does not fit is unfit by such a mapping, the first one
that it takes. -/
theorem prepare_of_unfit {action : Action} (accepted : action.flaw? = none)
    (unfit : ¬action.IsFit) (context : Json) :
    ∃ key ∈ action.kind.mappings, ∃ value, IsNoMapping action.parameters key value ∧
      action.prepare context = .error (.notMapping key value) := by
  obtain ⟨kind, parameters⟩ := action
  obtain ⟨key, member, value, noMapping⟩ :
      ∃ key ∈ kind.mappings, ∃ value, IsNoMapping parameters key value := by
    simpa [IsFit] using unfit
  have text (key : String) (needed : key ∈ kind.texts ++ kind.literals) :=
    text_of_has (has_of_accepted accepted needed) context
  have literal (key : String) (needed : key ∈ kind.texts ++ kind.literals) :=
    literal_of_has (has_of_accepted accepted needed)
  have refused := mapping_of_unfit noMapping context
  cases kind with
  | email =>
    obtain rfl := List.mem_singleton.mp member
    obtain ⟨recipient, first⟩ := text "to" (by decide)
    obtain ⟨subject, second⟩ := text "subject" (by decide)
    exact ⟨_, member, value, noMapping, by simp only [prepare, first, second, refused]; rfl⟩
  | updateRecord =>
    obtain ⟨table, first⟩ := literal "table" (by decide)
    by_cases filterFits : ∀ value, ¬IsNoMapping parameters "where" value
    · obtain ⟨filter, second⟩ := mapping_of_fit filterFits context
      obtain rfl : key = "data" := by
        rcases List.mem_pair.mp member with rfl | rfl
        · exact absurd noMapping (filterFits value)
        · rfl
      exact ⟨_, member, value, noMapping, by simp only [prepare, first, second, refused]; rfl⟩
    · obtain ⟨filter, noFilter⟩ := not_forall_not.mp filterFits
      have refused := mapping_of_unfit noFilter context
      exact ⟨"where", List.mem_cons_self, filter, noFilter,
        by simp only [prepare, first, refused]; rfl⟩
  | createRecord =>
    obtain rfl := List.mem_singleton.mp member
    obtain ⟨table, first⟩ := literal "table" (by decide)
    exact ⟨_, member, value, noMapping, by simp only [prepare, first, refused]; rfl⟩
  | notification | calculate | generateReport | aiAction => cases member

end Action

/-- The actions of a valid rule are accepted. -/
theorem Rule.accepted_of_isValid {rule : Rule} (valid : rule.isValid = true) {action : Action}
    (member : action ∈ rule.actions) : action.flaw? = none := by
  have flawless : rule.flaw? = none := Option.isNone_iff_eq_none.mp valid
  simp only [flaw?, Option.orElse_eq_orElse, Option.orElse_eq_or, Option.or_eq_none_iff]
    at flawless
  exact List.findSome?_eq_none_iff.mp flawless.2.2 action member

/-- Collaborators that never fail, whatever else they do. -/
def Collaborators.NeverFail {σ : Type} (collaborators : Collaborators σ) : Prop :=
  ∀ handoff engine, ∃ reply, (collaborators.deliver handoff engine).1 = .ok reply

namespace Engine

open ActionStep

variable {σ : Type} {collaborators : Collaborators σ} {context : Json}

/-- An accepted action whose mappings fit hands over one message, of its kind, unless it is passed
over; its outcome is that of the collaborator. -/
theorem perform_of_fit {action : Action} (accepted : action.flaw? = none) (fit : action.IsFit)
    (meant : action.isPassedOver collaborators.assisted = false) (engine : Engine σ) :
    ∃ handoff, handoff.kind = action.kind ∧
      perform collaborators action context engine =
        ((collaborators.deliver handoff engine).1.map fun _ => (),
          (ActionStep.handed action handoff).play collaborators engine) := by
  obtain ⟨handoff, prepared⟩ := Action.prepare_of_fit accepted fit context
  exact ⟨handoff, Action.kind_of_prepare prepared,
    perform_of_prepared collaborators engine meant prepared⟩

/-- With collaborators that never fail, an accepted action whose mappings fit succeeds. -/
theorem perform_of_neverFail {action : Action} (willing : collaborators.NeverFail)
    (accepted : action.flaw? = none) (fit : action.IsFit) (engine : Engine σ) :
    (perform collaborators action context engine).1 = .ok () := by
  cases passed : action.isPassedOver collaborators.assisted with
  | true => rw [perform_of_passedOver collaborators context engine passed]
  | false =>
    obtain ⟨handoff, _, performed⟩ := perform_of_fit accepted fit passed engine
    obtain ⟨reply, replied⟩ := willing handoff engine
    rw [performed, replied]
    rfl

/-- Actions that succeed whenever they are carried out all complete. -/
theorem performAll_of_ok (id : String) {actions : List Action}
    (succeed : ∀ action ∈ actions, ∀ engine,
      (perform collaborators action context engine).1 = .ok ()) (engine : Engine σ) :
    performAll collaborators id actions context engine =
      (.ok (), replay collaborators (completion collaborators.assisted context id 0 actions)
        engine) := by
  rcases performFrom_cases collaborators id context 0 actions engine with
    ⟨_, performed⟩ | ⟨before, action, failure, fails, _⟩
  · exact performed
  · obtain ⟨rest, rfl⟩ := fails.among
    have succeeded := succeed action (by simp)
    have failed := fails.failed
    rw [outcomeBehind, succeeded] at failed
    cases failed

/-- What is required of actions is what they need. An action that was accepted never lacks a
parameter. Unless nobody is there to assist with it, in which case it succeeds and does nothing, it
either has a mapping that is neither absent nor `null` nor an object; then it fails as invalid, and
nobody is handed anything. Or it hands one message over, of its kind, and its outcome is that of
the collaborator. With collaborators that never fail, a valid rule whose actions have no such
mapping is therefore carried out to its end on every context on which its conditions hold. -/
theorem accepted_actions_lack_nothing :
    (∀ (action : Action) (context : Json), action.flaw? = none →
      (∀ key, action.prepare context ≠ .error (.missing key)) ∧
      ∀ {σ : Type} (collaborators : Collaborators σ) (engine : Engine σ),
        (action.isPassedOver collaborators.assisted = true ∧
          perform collaborators action context engine = (.ok (), engine)) ∨
        (action.isPassedOver collaborators.assisted = false ∧ ¬action.IsFit ∧
          ∃ key ∈ action.kind.mappings, ∃ value, IsNoMapping action.parameters key value ∧
            perform collaborators action context engine =
              (.error (.invalidAction ("parameter '" ++ key ++ "' must be an object, got " ++
                value.compactText)), engine)) ∨
        (action.isPassedOver collaborators.assisted = false ∧ action.IsFit ∧
          ∃ handoff, handoff.kind = action.kind ∧
            perform collaborators action context engine =
              ((collaborators.deliver handoff engine).1.map fun _ => (),
                (ActionStep.handed action handoff).play collaborators engine))) ∧
    ∀ rule : Rule, rule.isValid = true → (∀ action ∈ rule.actions, action.IsFit) →
      ∀ {σ : Type} (collaborators : Collaborators σ), collaborators.NeverFail →
        ∀ (id : String) (context : Json) (engine : Engine σ),
          performAll collaborators id rule.actions context engine =
            (.ok (), replay collaborators
              (completion collaborators.assisted context id 0 rule.actions) engine) ∧
          (engine.find? id = some rule → rule.isActive = true →
            Conditions.hold rule.conditions context = true →
              (engine.execute collaborators id context).1 = true) := by
  constructor
  · intro action context accepted
    constructor
    · intro key lacking
      by_cases fit : action.IsFit
      · obtain ⟨handoff, prepared⟩ := Action.prepare_of_fit accepted fit context
        rw [prepared] at lacking
        cases lacking
      · obtain ⟨_, _, _, _, unprepared⟩ := Action.prepare_of_unfit accepted fit context
        rw [unprepared] at lacking
        cases lacking
    · intro σ collaborators engine
      cases passed : action.isPassedOver collaborators.assisted with
      | true => exact .inl ⟨rfl, perform_of_passedOver collaborators context engine passed⟩
      | false =>
        by_cases fit : action.IsFit
        · exact .inr (.inr ⟨rfl, fit, perform_of_fit accepted fit passed engine⟩)
        · obtain ⟨key, member, value, noMapping, unprepared⟩ :=
            Action.prepare_of_unfit accepted fit context
          exact .inr (.inl ⟨rfl, fit, key, member, value, noMapping,
            perform_of_unfit collaborators engine passed unprepared⟩)
  · intro rule valid fit σ collaborators willing id context engine
    have succeed (action : Action) (member : action ∈ rule.actions) (engine : Engine σ) :
        (perform collaborators action context engine).1 = .ok () :=
      perform_of_neverFail willing (rule.accepted_of_isValid valid member) (fit action member)
        engine
    refine ⟨performAll_of_ok id succeed engine, ?_⟩
    intro registered active holds
    rw [execute_of_active registered active]
    exact (carryOut_iff rule context engine.supply.now.instant "manual" engine.look.2).mpr
      ⟨holds, congrArg Prod.fst (performAll_of_ok rule.id succeed _)⟩

/-- An accepted email whose variables are a text is not sent. A rule that files a record without
data is carried out to its end. -/
theorem wordy_email_fails_and_filing_completes :
    let email : Action := ⟨.email,
      [("subject", .string "Done"), ("to", .string "a@x.com"), ("variables", .string "none")]⟩
    let rule := onCompletion "diploma"
      [⟨.createRecord, [("data", .null), ("table", .string "diplomas")]⟩]
    let engine : Engine Unit := { rules := [rule], supply := completing.supply, outside := () }
    perform .logging email .null engine =
        (.error (.invalidAction "parameter 'variables' must be an object, got \"none\""),
          engine) ∧
      (engine.execute .logging "diploma" .null).1 = true := by
  intro email rule engine
  obtain ⟨actions, rules⟩ := accepted_actions_lack_nothing
  constructor
  · obtain ⟨_, performed⟩ := actions email .null (by decide +kernel)
    rcases performed .logging engine with
      ⟨passed, _⟩ | ⟨_, _, key, member, value, noMapping, failed⟩ | ⟨_, fit, _⟩
    · exact absurd passed (by decide)
    · obtain rfl := List.mem_singleton.mp member
      obtain rfl : Json.string "none" = value := Option.some.inj noMapping.found
      exact failed
    · exact absurd ⟨rfl, by simp, by simp⟩ (fit "variables" List.mem_cons_self (.string "none"))
  · have fit : ∀ action ∈ rule.actions, action.IsFit := by
      intro action member key mapping value noMapping
      obtain rfl := List.mem_singleton.mp member
      obtain rfl := List.mem_singleton.mp mapping
      obtain rfl : Json.null = value := Option.some.inj noMapping.found
      exact noMapping.notNull rfl
    exact (rules rule (by decide +kernel) fit .logging (fun _ _ => ⟨_, rfl⟩) "diploma" .null
      engine).2 rfl rfl rfl

end Engine

end CampusRules
