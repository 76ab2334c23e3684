import CampusRules.Proofs.Engine.Dispatch

/-!
# What is done to carry actions out

To carry out actions, an engine announces how each of them goes and hands messages to its
collaborators, and does nothing else. These steps are written down here in closed form. An action
that completes is announced twice, with its message in between if it hands over any; the first
action that fails is announced twice, too; and those behind it are not mentioned.

The main statement holds for collaborators that do whatever they like to the engine while they
have a message, also ask it to carry out other rules. What they do is part of the step that hands
them the message, and the engine that is left is the one that the steps lead to, one after the
other. Where collaborators do not call back, the steps can be read off: the announcements are the
events that are sent, and the messages are those that were received.
-/

namespace CampusRules

/-- The events of actions that all complete, counted from a position on: each is announced as it
starts and as it completes. -/
def ActionEvent.ofCompleted (id : String) (index : Nat) (actions : List Action) :
    List ActionEvent :=
  (actions.zipIdx index).flatMap fun turn =>
    [.started id turn.2 turn.1.kind, .completed id turn.2]

/-- What is done to carry actions out: the engine announces how an action goes, or hands over the
message of an action. -/
inductive ActionStep where
  | announced (event : ActionEvent)
  | handed (action : Action) (handoff : Handoff)

namespace ActionStep

/-- The event that a step announces, if it does. -/
def event? : ActionStep → Option ActionEvent
  | announced event => some event
  | handed _ _ => none

/-- The message that a step hands over, if it does. -/
def handoff? : ActionStep → Option Handoff
  | announced _ => none
  | handed _ handoff => some handoff

/-- An action as it starts, and its message. -/
def begun (assisted : Bool) (context : Json) (id : String) (index : Nat) (action : Action) :
    List ActionStep :=
  .announced (.started id index action.kind) ::
    (action.message? assisted context).toList.map (.handed action)

/-- The steps of actions that all complete, counted from a position on. -/
def completion (assisted : Bool) (context : Json) (id : String) :
    Nat → List Action → List ActionStep
  | _, [] => []
  | index, action :: rest =>
    begun assisted context id index action ++ .announced (.completed id index) ::
      completion assisted context id (index + 1) rest

/-- The steps of an action that fails. -/
def breakdown (assisted : Bool) (context : Json) (id : String) (index : Nat) (action : Action)
    (failure : Failure) : List ActionStep :=
  begun assisted context id index action ++ [.announced (.failed id index failure.message)]

variable (assisted : Bool) (context : Json) (id : String)

/-- The steps of actions that complete are those of the first and then those of the others. -/
theorem completion_cons (index : Nat) (action : Action) (rest : List Action) :
    completion assisted context id index (action :: rest) =
      completion assisted context id index [action] ++
        completion assisted context id (index + 1) rest := by
  simp [completion]

/-- The events of an action that starts. -/
theorem events_begun (index : Nat) (action : Action) :
    (begun assisted context id index action).filterMap event? =
      [.started id index action.kind] := by
  cases message : action.message? assisted context <;> simp [begun, message, event?]

/-- The messages of an action that starts. -/
theorem handoffs_begun (index : Nat) (action : Action) :
    (begun assisted context id index action).filterMap handoff? =
      (action.message? assisted context).toList := by
  cases message : action.message? assisted context <;>
    simp [begun, message, handoff?, List.filterMap_cons]

/-- Actions that complete are announced one after the other. -/
theorem events_completion (index : Nat) (actions : List Action) :
    (completion assisted context id index actions).filterMap event? =
      ActionEvent.ofCompleted id index actions := by
  induction actions generalizing index with
  | nil => rfl
  | cons action rest inductionHypothesis =>
    simp [completion, event?, events_begun, inductionHypothesis, ActionEvent.ofCompleted]

/-- Actions that complete hand over the messages that they have, in order. -/
theorem handoffs_completion (index : Nat) (actions : List Action) :
    (completion assisted context id index actions).filterMap handoff? =
      actions.filterMap (·.message? assisted context) := by
  induction actions generalizing index with
  | nil => rfl
  | cons action rest inductionHypothesis =>
    cases message : action.message? assisted context <;>
      simp [completion, handoff?, handoffs_begun, inductionHypothesis, message, List.filterMap_cons]

/-- An action that fails is announced as it starts and as it fails. -/
theorem events_breakdown (index : Nat) (action : Action) (failure : Failure) :
    (breakdown assisted context id index action failure).filterMap event? =
      [.started id index action.kind, .failed id index failure.message] := by
  simp [breakdown, events_begun, event?]

/-- An action that fails hands over the message that it has. -/
theorem handoffs_breakdown (index : Nat) (action : Action) (failure : Failure) :
    (breakdown assisted context id index action failure).filterMap handoff? =
      [action].filterMap (·.message? assisted context) := by
  cases message : action.message? assisted context <;>
    simp [breakdown, handoffs_begun, message, handoff?, List.filterMap_cons]

variable {assisted context id}

/-- What is handed over as an action starts is the message of this action. -/
theorem message?_of_mem_begun {index : Nat} {action other : Action} {handoff : Handoff}
    (handed : .handed other handoff ∈ begun assisted context id index action) :
    other.message? assisted context = some handoff := by
  rcases List.mem_cons.mp handed with announced | handed
  · cases announced
  · obtain ⟨message, there, same⟩ := List.mem_map.mp handed
    cases same
    exact Option.mem_toList.mp there

/-- What is handed over of actions that complete are their messages. -/
theorem message?_of_mem_completion {index : Nat} {actions : List Action} {action : Action}
    {handoff : Handoff}
    (handed : .handed action handoff ∈ completion assisted context id index actions) :
    action.message? assisted context = some handoff := by
  induction actions generalizing index with
  | nil => cases handed
  | cons first rest inductionHypothesis =>
    rcases List.mem_append.mp handed with handed | handed
    · exact message?_of_mem_begun handed
    · rcases List.mem_cons.mp handed with announced | handed
      · cases announced
      · exact inductionHypothesis handed

/-- What is handed over of an action that fails is its message. -/
theorem message?_of_mem_breakdown {index : Nat} {action other : Action} {failure : Failure}
    {handoff : Handoff}
    (handed : .handed other handoff ∈ breakdown assisted context id index action failure) :
    other.message? assisted context = some handoff := by
  rcases List.mem_append.mp handed with handed | announced
  · exact message?_of_mem_begun handed
  · cases List.mem_singleton.mp announced

end ActionStep

variable {σ : Type} (collaborators : Collaborators σ)

namespace ActionStep

/-- The engine that a step leads to. A message that is replied to is acknowledged. -/
def play (step : ActionStep) (engine : Engine σ) : Engine σ :=
  match step with
  | announced event => engine.announceAction event
  | handed action handoff =>
    match collaborators.deliver handoff engine with
    | (.error _, after) => after
    | (.ok reply, after) => after.acknowledge action reply

/-- The engine that steps lead to, one after the other. -/
def replay (steps : List ActionStep) (engine : Engine σ) : Engine σ :=
  steps.foldl (fun reached step => step.play collaborators reached) engine

/-- Steps in a row lead from where the earlier ones have led. -/
theorem replay_append (earlier later : List ActionStep) (engine : Engine σ) :
    replay collaborators (earlier ++ later) engine =
      replay collaborators later (replay collaborators earlier engine) :=
  List.foldl_append

/-- One step behind others is made where these have led. -/
theorem replay_concat (earlier : List ActionStep) (step : ActionStep) (engine : Engine σ) :
    replay collaborators (earlier ++ [step]) engine =
      step.play collaborators (replay collaborators earlier engine) :=
  replay_append collaborators earlier [step] engine

end ActionStep

/-- A message has the kind of the action that hands it over. -/
theorem Action.kind_of_prepare {action : Action} {context : Json} {handoff : Handoff}
    (prepared : action.prepare context = .ok handoff) : handoff.kind = action.kind := by
  obtain ⟨kind, parameters⟩ := action
  cases kind <;> simp only [prepare, bind, Except.bind] at prepared <;> grind [Handoff.kind]

/-- So has the message that it hands over where it may be passed over. -/
theorem Action.kind_of_message? {action : Action} {assisted : Bool} {context : Json}
    {handoff : Handoff} (message : action.message? assisted context = some handoff) :
    handoff.kind = action.kind := by
  unfold message? at message
  split at message
  · cases message
  · cases prepared : action.prepare context with
    | error unfit =>
      rw [prepared] at message
      cases message
    | ok other =>
      rw [prepared] at message
      cases message
      exact kind_of_prepare prepared

namespace Engine

open ActionStep

/-- An action that is passed over succeeds, and nothing is done. -/
theorem perform_of_passedOver {action : Action} (context : Json) (engine : Engine σ)
    (passed : action.isPassedOver collaborators.assisted = true) :
    perform collaborators action context engine = (.ok (), engine) :=
  if_pos (of_decide_eq_true passed)

/-- An action that is unfit fails by that, and nothing is done. -/
theorem perform_of_unfit {action : Action} {context : Json} {unfit : Unfit} (engine : Engine σ)
    (meant : action.isPassedOver collaborators.assisted = false)
    (unprepared : action.prepare context = .error unfit) :
    perform collaborators action context engine = (.error unfit.failure, engine) := by
  rw [perform, if_neg (of_decide_eq_false meant), unprepared]

/-- An action with a message hands it over, and its outcome is that of the collaborator. -/
theorem perform_of_prepared {action : Action} {context : Json} {handoff : Handoff}
    (engine : Engine σ) (meant : action.isPassedOver collaborators.assisted = false)
    (prepared : action.prepare context = .ok handoff) :
    perform collaborators action context engine =
      ((collaborators.deliver handoff engine).1.map fun _ => (),
        (ActionStep.handed action handoff).play collaborators engine) := by
  rw [perform, if_neg (of_decide_eq_false meant), prepared]
  rcases delivered : collaborators.deliver handoff engine with ⟨_ | _, after⟩ <;>
    simp [play, delivered, Except.map]

/-- All that an action does is to hand over its message, if it has one. -/
theorem perform_replay (action : Action) (context : Json) (engine : Engine σ) :
    (perform collaborators action context engine).2 =
      replay collaborators
        ((action.message? collaborators.assisted context).toList.map (.handed action))
        engine := by
  cases passed : action.isPassedOver collaborators.assisted with
  | true =>
    simp [perform_of_passedOver collaborators context engine passed, Action.message?, passed,
      replay]
  | false =>
    cases prepared : action.prepare context with
    | error unfit =>
      simp [perform_of_unfit collaborators engine passed prepared, Action.message?, passed,
        prepared, Except.toOption, replay]
    | ok handoff =>
      simp [perform_of_prepared collaborators engine passed prepared, Action.message?, passed,
        prepared, Except.toOption, replay]

variable (id : String) (context : Json)

/-- All that is done of an action that was announced is its start. -/
theorem perform_begun (index : Nat) (action : Action) (engine : Engine σ) :
    (perform collaborators action context
        (engine.announceAction (.started id index action.kind))).2 =
      replay collaborators (begun collaborators.assisted context id index action) engine :=
  perform_replay collaborators action context _

/-- What an action comes to at its turn, behind others that complete. -/
def outcomeBehind (index : Nat) (before : List Action) (action : Action) (engine : Engine σ) :
    Except Failure Unit :=
  (perform collaborators action context
    ((replay collaborators (completion collaborators.assisted context id index before)
      engine).announceAction (.started id (index + before.length) action.kind))).1

/-- Every one of some actions succeeds at its turn. -/
def AllSucceed (index : Nat) (actions : List Action) (engine : Engine σ) : Prop :=
  ∀ before action rest, actions = before ++ action :: rest →
    outcomeBehind collaborators id context index before action engine = .ok ()

/-- An action fails at its turn, and is the first of some actions that does. -/
structure FailsFirst (index : Nat) (actions before : List Action) (action : Action)
    (failure : Failure) (engine : Engine σ) : Prop where
  among : ∃ rest, actions = before ++ action :: rest
  succeeded : AllSucceed collaborators id context index before engine
  failed : outcomeBehind collaborators id context index before action engine = .error failure

variable {collaborators id context}

/-- The turn of an action behind the first is its turn behind the others, where the first has led
to. -/
theorem outcomeBehind_cons (index : Nat) (first : Action) (before : List Action) (action : Action)
    (engine : Engine σ) :
    outcomeBehind collaborators id context index (first :: before) action engine =
      outcomeBehind collaborators id context (index + 1) before action
        (replay collaborators (completion collaborators.assisted context id index [first])
          engine) := by
  have position : index + (first :: before).length = index + 1 + before.length :=
    (Nat.succ_add_eq_add_succ index before.length).symm
  rw [outcomeBehind, outcomeBehind, completion_cons, replay_append, position]

/-- Where an action succeeds and then the others do, all of them do. -/
theorem AllSucceed.cons {index : Nat} {action : Action} {rest : List Action} {engine : Engine σ}
    (here : outcomeBehind collaborators id context index [] action engine = .ok ())
    (others : AllSucceed collaborators id context (index + 1) rest
      (replay collaborators (completion collaborators.assisted context id index [action])
        engine)) :
    AllSucceed collaborators id context index (action :: rest) engine := by
  rintro (_ | ⟨first, before⟩) other later split
  · cases split
    exact here
  · cases split
    rw [outcomeBehind_cons]
    exact others before other later rfl

/-- Where an action succeeds, the first of the others that fails is the first of all. -/
theorem FailsFirst.cons {index : Nat} {action other : Action} {rest before : List Action}
    {failure : Failure} {engine : Engine σ}
    (here : outcomeBehind collaborators id context index [] action engine = .ok ())
    (others : FailsFirst collaborators id context (index + 1) rest before other failure
      (replay collaborators (completion collaborators.assisted context id index [action])
        engine)) :
    FailsFirst collaborators id context index (action :: rest) (action :: before) other failure
      engine := by
  obtain ⟨later, rfl⟩ := others.among
  refine ⟨⟨later, rfl⟩, others.succeeded.cons here, ?_⟩
  rw [outcomeBehind_cons]
  exact others.failed

/-- Where an action succeeds, carrying it out and others is carrying out the others behind it. -/
theorem performFrom_of_ok {index : Nat} {action : Action} {engine : Engine σ}
    (here : outcomeBehind collaborators id context index [] action engine = .ok ())
    (rest : List Action) :
    performFrom collaborators id context index (action :: rest) engine =
      performFrom collaborators id context (index + 1) rest
        (replay collaborators (completion collaborators.assisted context id index [action])
          engine) := by
  have started := perform_begun collaborators id context index action engine
  have concluded : completion collaborators.assisted context id index [action] =
      begun collaborators.assisted context id index action ++
        [.announced (.completed id index)] := rfl
  rcases performed : perform collaborators action context
    (engine.announceAction (.started id index action.kind)) with ⟨outcome, after⟩
  obtain rfl : outcome = .ok () := (congrArg Prod.fst performed).symm.trans here
  rw [performed] at started
  simp only [performFrom, performed]
  rw [concluded, replay_concat, ← started]
  rfl

/-- Where an action fails, those behind it are not carried out. -/
theorem performFrom_of_error {index : Nat} {action : Action} {failure : Failure}
    {engine : Engine σ}
    (here : outcomeBehind collaborators id context index [] action engine = .error failure)
    (rest : List Action) :
    performFrom collaborators id context index (action :: rest) engine =
      (.error failure, replay collaborators
        (breakdown collaborators.assisted context id index action failure) engine) := by
  have started := perform_begun collaborators id context index action engine
  rcases performed : perform collaborators action context
    (engine.announceAction (.started id index action.kind)) with ⟨outcome, after⟩
  obtain rfl : outcome = .error failure := (congrArg Prod.fst performed).symm.trans here
  rw [performed] at started
  simp only [performFrom, performed]
  rw [breakdown, replay_concat, ← started]
  rfl

variable (collaborators id context) in
/-- Carrying out actions either completes them all, or ends with the first that fails. Which of
the two it is shows at the first action, or else in what the others come to behind it. -/
theorem performFrom_cases (index : Nat) (actions : List Action) (engine : Engine σ) :
    (AllSucceed collaborators id context index actions engine ∧
      performFrom collaborators id context index actions engine =
        (.ok (), replay collaborators
          (completion collaborators.assisted context id index actions) engine)) ∨
    ∃ before action failure,
      FailsFirst collaborators id context index actions before action failure engine ∧
      performFrom collaborators id context index actions engine =
        (.error failure, replay collaborators
          (completion collaborators.assisted context id index before ++
            breakdown collaborators.assisted context id (index + before.length) action failure)
          engine) := by
  induction actions generalizing index engine with
  | nil => exact .inl ⟨fun before action rest split => by simp at split, rfl⟩
  | cons action rest inductionHypothesis =>
    cases here : outcomeBehind collaborators id context index [] action engine with
    | error failure =>
      refine .inr ⟨[], action, failure, ⟨⟨rest, rfl⟩, ?_, here⟩, performFrom_of_error here rest⟩
      intro before other later split
      simp at split
    | ok =>
      rw [performFrom_of_ok here]
      rcases inductionHypothesis (index + 1)
          (replay collaborators (completion collaborators.assisted context id index [action])
            engine) with
        ⟨succeeded, performed⟩ | ⟨before, other, failure, fails, performed⟩
      · rw [performed, ← replay_append, ← completion_cons]
        exact .inl ⟨succeeded.cons here, rfl⟩
      · refine .inr ⟨action :: before, other, failure, fails.cons here, ?_⟩
        have position : index + (action :: before).length = index + 1 + before.length :=
          (Nat.succ_add_eq_add_succ index before.length).symm
        rw [performed, ← replay_append, ← List.append_assoc, ← completion_cons, position]

/-- Collaborators that do not call back receive the messages of steps, and the announcements are
the events that are sent. Besides, only the log grows. -/
theorem replay_of_behaves {behaviour : Behaviour σ} (behaves : collaborators.Behaves behaviour)
    (steps : List ActionStep) (engine : Engine σ) :
    ∃ log, replay collaborators steps engine = { engine with
      outside := behaviour.receive (steps.filterMap handoff?) engine.outside
      actionEvents := engine.actionEvents ++ steps.filterMap event?, log } := by
  induction steps generalizing engine with
  | nil => exact ⟨engine.log, by simp [replay, Behaviour.receive]⟩
  | cons step rest inductionHypothesis =>
    cases step with
    | announced event =>
      obtain ⟨log, others⟩ := inductionHypothesis (engine.announceAction event)
      refine ⟨log, others.trans ?_⟩
      simp [announceAction, event?, handoff?, List.filterMap_cons]
    | handed action handoff =>
      obtain ⟨acknowledged, played⟩ :
          ∃ log, (ActionStep.handed action handoff).play collaborators engine =
            { engine with outside := (behaviour handoff engine.outside).2, log } := by
        obtain ⟨log, delivered⟩ := behaves handoff engine
        rcases answer : (behaviour handoff engine.outside).1 with failure | reply
        · exact ⟨log, by simp [play, delivered, answer]⟩
        · simp only [play, delivered, answer]
          cases reply <;> exact ⟨_, rfl⟩
      obtain ⟨log, others⟩ := inductionHypothesis
        { engine with outside := (behaviour handoff engine.outside).2, log := acknowledged }
      refine ⟨log, ?_⟩
      have first : replay collaborators (.handed action handoff :: rest) engine =
          replay collaborators rest
            ((ActionStep.handed action handoff).play collaborators engine) := rfl
      rw [first, played, others]
      simp [event?, handoff?, List.filterMap_cons, Behaviour.receive]

variable (collaborators id context) in
/-- Actions are carried out in order, up to the first that fails. Either every one of them succeeds
at its turn, each is announced as it starts and as it completes, and the outcome is a success. Or
there is a first one that fails: those before it complete, it is announced as it starts and as it
fails, with the text of its failure, which is also the outcome, and those behind it neither start
nor hand anything over. The engine that is left is where these steps lead, so nothing that was
handed over is taken back: the messages are those of the actions that started, in order, one at
most for each and of its kind. Collaborators that do not call back have received exactly these, and
the announcements are the events that were sent. -/
theorem actions_run_to_first_failure (actions : List Action) (engine : Engine σ) :
    ∃ outcome steps,
      performAll collaborators id actions context engine =
        (outcome, replay collaborators steps engine) ∧
      ((AllSucceed collaborators id context 0 actions engine ∧ outcome = .ok () ∧
          steps = completion collaborators.assisted context id 0 actions ∧
          steps.filterMap event? = ActionEvent.ofCompleted id 0 actions ∧
          steps.filterMap handoff? =
            actions.filterMap (·.message? collaborators.assisted context)) ∨
        ∃ before action failure,
          FailsFirst collaborators id context 0 actions before action failure engine ∧
          outcome = .error failure ∧
          steps = completion collaborators.assisted context id 0 before ++
            breakdown collaborators.assisted context id before.length action failure ∧
          steps.filterMap event? = ActionEvent.ofCompleted id 0 before ++
            [.started id before.length action.kind, .failed id before.length failure.message] ∧
          steps.filterMap handoff? =
            (before ++ [action]).filterMap (·.message? collaborators.assisted context)) ∧
      (∀ action handoff, .handed action handoff ∈ steps →
        action.message? collaborators.assisted context = some handoff ∧
          handoff.kind = action.kind) ∧
      ∀ behaviour, collaborators.Behaves behaviour →
        (performAll collaborators id actions context engine).2.actionEvents =
          engine.actionEvents ++ steps.filterMap event? ∧
        (performAll collaborators id actions context engine).2.outside =
          behaviour.receive (steps.filterMap handoff?) engine.outside := by
  have received (outcome : Except Failure Unit) (steps : List ActionStep)
      (performed : performAll collaborators id actions context engine =
        (outcome, replay collaborators steps engine))
      (behaviour : Behaviour σ) (behaves : collaborators.Behaves behaviour) :
      (performAll collaborators id actions context engine).2.actionEvents =
        engine.actionEvents ++ steps.filterMap event? ∧
      (performAll collaborators id actions context engine).2.outside =
        behaviour.receive (steps.filterMap handoff?) engine.outside := by
    obtain ⟨log, replayed⟩ := replay_of_behaves behaves steps engine
    rw [performed, replayed]
    exact ⟨rfl, rfl⟩
  rcases performFrom_cases collaborators id context 0 actions engine with
    ⟨succeeded, performed⟩ | ⟨before, action, failure, fails, performed⟩
  · refine ⟨.ok (), _, performed, .inl ⟨succeeded, rfl, rfl, ?_, ?_⟩, ?_, received _ _ performed⟩
    · exact events_completion ..
    · exact handoffs_completion ..
    · intro action handoff handed
      have message := message?_of_mem_completion handed
      exact ⟨message, Action.kind_of_message? message⟩
  · rw [Nat.zero_add] at performed
    refine ⟨.error failure, _, performed,
      .inr ⟨before, action, failure, fails, rfl, rfl, ?_, ?_⟩, ?_, received _ _ performed⟩
    · rw [List.filterMap_append, events_completion, events_breakdown]
    · rw [List.filterMap_append, handoffs_completion, handoffs_breakdown, ← List.filterMap_append]
    · intro other handoff handed
      have message := (List.mem_append.mp handed).elim message?_of_mem_completion
        message?_of_mem_breakdown
      exact ⟨message, Action.kind_of_message? message⟩

/-- A rule files a certificate, sends an email and files a note, but no email gets through. The
certificate is filed and the email was handed over; the note is not. -/
theorem unsent_email_ends_actions :
    let collaborators := Collaborators.following false mailless
    let email : Action := ⟨.email, [("to", .string "a@x.com"), ("subject", .string "Done")]⟩
    let actions := [filing "certificates", email, filing "notes"]
    let engine : Engine (List Handoff) := { supply := completing.supply, outside := [] }
    ∃ steps,
      performAll collaborators "diploma" actions .null engine =
        (.error (.handlerFailed "smtp unavailable"), replay collaborators steps engine) ∧
      steps.filterMap event? =
        [.started "diploma" 0 .createRecord, .completed "diploma" 0, .started "diploma" 1 .email,
          .failed "diploma" 1 "Action handler failed: smtp unavailable"] ∧
      steps.filterMap handoff? =
        [.createRecord ⟨"certificates", []⟩, .email ⟨"a@x.com", "Done", none, []⟩] := by
  intro collaborators email actions engine
  obtain ⟨outcome, steps, performed, _, _, received⟩ :=
    actions_run_to_first_failure collaborators "diploma" .null actions engine
  obtain ⟨events, outside⟩ := received mailless (Collaborators.following_behaves false mailless)
  have evaluated :
      (performAll collaborators "diploma" actions .null engine).1 =
        .error (.handlerFailed "smtp unavailable") ∧
      (performAll collaborators "diploma" actions .null engine).2.actionEvents =
        [.started "diploma" 0 .createRecord, .completed "diploma" 0, .started "diploma" 1 .email,
          .failed "diploma" 1 "Action handler failed: smtp unavailable"] ∧
      (performAll collaborators "diploma" actions .null engine).2.outside =
        [.createRecord ⟨"certificates", []⟩, .email ⟨"a@x.com", "Done", none, []⟩] := by
    decide +kernel
  obtain ⟨failed, announced, handed⟩ := evaluated
  rw [events] at announced
  rw [outside, mailless, Behaviour.receive_recording] at handed
  rw [performed] at failed ⊢
  exact ⟨steps, by rw [← failed], announced, handed⟩

end Engine

end CampusRules
