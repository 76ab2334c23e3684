import CampusRules.Proofs.Server.RuleRoutes

/-!
# What an answer tells of the registry

A client that is refused may try again, so a refusal has to mean that nothing has happened. It does:
whatever a request looks like and however the disk behaves, an answer without success leaves the
registry, the stored document, the collaborators and the stream of events as they were, and so does
every request to look at something. In the other direction, a rule that an answer reports as created
or changed is found in the registry, and one that it reports as removed is not.

What can be refused is refused at one of two places: before anything is done (`andThen`), or by an
operation on the registry, which happens as a whole or not at all.
-/

namespace CampusRules

namespace Response

/-- Whether the status of a response is one of success. -/
def isSuccess (response : Response) : Bool := 200 ≤ response.status && response.status < 300

/-- The body of a response says that the request has succeeded. -/
def ReportsSuccess (response : Response) : Prop :=
  ∃ members, response.body = some (.object members) ∧ ("success", .bool true) ∈ members

/-- Data is only given with a report of success. -/
theorem reportsSuccess_success (data : Json) (status : Nat) :
    (success data status).ReportsSuccess :=
  ⟨_, rfl, List.mem_cons_self⟩

/-- A failure is not a success by its status. -/
theorem isSuccess_failure (reason : Failure) : (failure reason).isSuccess = false := by
  cases reason <;> rfl

/-- A failure is not a success by its body, whatever its text. -/
theorem not_reportsSuccess_failure (reason : Failure) : ¬(failure reason).ReportsSuccess := by
  rintro ⟨members, body, member⟩
  cases body
  simp at member

/-- A response without a body reports nothing. -/
theorem not_reportsSuccess_plain (status : Nat) : ¬(plain status).ReportsSuccess := by
  rintro ⟨members, body, _⟩
  cases body

/-- A response for the head alone reports nothing. -/
theorem not_reportsSuccess_headOnly (response : Response) : ¬response.headOnly.ReportsSuccess := by
  rintro ⟨members, body, _⟩
  cases body

end Response

namespace Server

open Engine Route

variable {σ : Type} {collaborators : Collaborators σ} {engine : Engine σ} {request : Request}

/-- A request was refused: its answer is a success neither by the status nor by the body, and
nothing has happened. -/
structure Refused (engine : Engine σ) (answered : Response × Engine σ) : Prop where
  status : answered.1.isSuccess = false
  body : ¬answered.1.ReportsSuccess
  untouched : Untouched engine answered.2

/-- A request was refused, or what was answered has a property. -/
def RefusedOr (engine : Engine σ) (property : Response × Engine σ → Prop)
    (answered : Response × Engine σ) : Prop :=
  Refused engine answered ∨ property answered

/-- A failure that left everything alone is a refusal. -/
theorem refused_failure {after : Engine σ} (reason : Failure) (untouched : Untouched engine after) :
    Refused engine (.failure reason, after) :=
  ⟨Response.isSuccess_failure reason, Response.not_reportsSuccess_failure reason, untouched⟩

/-- A status without a body is a refusal, unless it is one of success. -/
theorem refused_plain {status : Nat} (unsuccessful : (Response.plain status).isSuccess = false)
    (engine : Engine σ) : Refused engine (.plain status, engine) :=
  ⟨unsuccessful, Response.not_reportsSuccess_plain status, .refl engine⟩

section

variable {property : Response × Engine σ → Prop}

/-- A name in a path that is not a text refuses the request, before anything is done. -/
theorem RefusedOr.named {name : String} {goOn : String → Response × Engine σ}
    (goesOn : ∀ id, Percent.decode? name = some id → RefusedOr engine property (goOn id)) :
    RefusedOr engine property (andThen (readName name) engine goOn) := by
  unfold readName
  split
  · rename_i id decoded
    exact goesOn id decoded
  · exact .inl (refused_plain rfl engine)

/-- A body that cannot be read refuses the request, before anything is done. -/
theorem RefusedOr.read {α : Type} {read : Json.Raw → Except Json.Refusal α}
    {goOn : α → Response × Engine σ}
    (goesOn : ∀ value, RefusedOr engine property (goOn value)) :
    RefusedOr engine property (andThen (readBody request read) engine goOn) := by
  unfold readBody
  split
  · exact .inl (refused_plain rfl engine)
  · split
    · exact .inl (refused_plain rfl engine)
    · split
      · exact goesOn _
      · exact .inl (refused_plain rfl engine)
      · exact .inl (refused_plain rfl engine)

end

/-- The status tells of success. -/
def Succeeded (answered : Response × Engine σ) : Prop := answered.1.isSuccess = true

/-- A rule is reported as created, and found under the identifier that is reported. -/
def Created (answered : Response × Engine σ) : Prop :=
  ∃ id rule, answered.1 = .success (.object [("id", .string id)]) 201 ∧
    answered.2.find? id = some rule

/-- A rule is reported as changed, and found as it is reported under the identifier that a segment
of a path names. -/
def Changed (name : String) (answered : Response × Engine σ) : Prop :=
  ∃ id rule, Percent.decode? name = some id ∧ answered.1 = .success rule.toJson ∧
    answered.2.find? id = some rule

/-- A rule is reported as removed, and not found under the identifier that a segment of a path
names, if no two rules shared one. -/
def Removed (name : String) (engine : Engine σ) (answered : Response × Engine σ) : Prop :=
  ∃ id, Percent.decode? name = some id ∧
    answered.1 = .success (.object [("removed", .string id)]) ∧
      (Registry.Distinct engine.rules → answered.2.find? id = none)

/-- What is created is found, since its identifier is new. -/
theorem createRule_cases (request : Request) (engine : Engine σ) :
    RefusedOr engine Created (createRule request engine) := by
  refine .read fun new => ?_
  rcases outcome : engine.add new with ⟨answer, after⟩
  rcases add_outcome new engine with ⟨failure, failed, untouched⟩ | ⟨done, committed⟩
  · rw [outcome] at failed untouched
    obtain rfl : answer = .error failure := failed
    exact .inl (refused_failure failure untouched)
  · obtain ⟨_, unlike⟩ := insert_accepted done
    rw [outcome] at done committed
    obtain rfl : answer = .ok _ := done
    exact .inr ⟨_, _, rfl, find?_last committed.rules unlike⟩

/-- What is changed is still found where it was. -/
theorem changeRule_cases (name : String) (request : Request) (engine : Engine σ) :
    RefusedOr engine (Changed name) (changeRule name request engine) := by
  refine .named fun id decoded => .read fun change => ?_
  rcases outcome : engine.update id change with ⟨answer, after⟩
  rcases update_outcome id change engine with
    ⟨missing, _, untouched⟩ | ⟨failure, failed, untouched⟩ |
      ⟨done, index, rule, position, _, same, _, committed⟩
  · rw [outcome] at missing untouched
    obtain rfl : answer = .ok false := missing
    exact .inl (refused_failure (.notFound id) untouched)
  · rw [outcome] at failed untouched
    obtain rfl : answer = .error failure := failed
    exact .inl (refused_failure failure untouched)
  · rw [outcome] at done committed
    obtain rfl : answer = .ok true := done
    have found : after.find? id = some (rule.merge change) := by
      rw [find?, committed.rules]
      exact Registry.find?_set position same
    refine .inr ⟨id, rule.merge change, decoded, ?_, found⟩
    simp only [showRule, found]

/-- What is removed is not found any more, unless another rule had its identifier. -/
theorem deleteRule_cases (name : String) (engine : Engine σ) :
    RefusedOr engine (Removed name engine) (deleteRule name engine) := by
  refine .named fun id decoded => ?_
  rcases outcome : engine.remove id with ⟨answer, after⟩
  rcases remove_outcome id engine with
    ⟨missing, _, untouched⟩ | ⟨failure, failed, untouched⟩ | ⟨done, index, position, committed⟩
  · rw [outcome] at missing untouched
    obtain rfl : answer = .ok false := missing
    exact .inl (refused_failure (.notFound id) untouched)
  · rw [outcome] at failed untouched
    obtain rfl : answer = .error failure := failed
    exact .inl (refused_failure failure untouched)
  · rw [outcome] at done committed
    obtain rfl : answer = .ok true := done
    refine .inr ⟨id, decoded, rfl, fun distinct => ?_⟩
    rw [find?, committed.rules]
    exact Registry.find?_eraseIdx distinct position

/-- An execution is answered with success as soon as its request is read. -/
theorem executeRule_cases (collaborators : Collaborators σ) (name : String) (request : Request)
    (engine : Engine σ) :
    RefusedOr engine Succeeded (executeRule collaborators name request engine) :=
  .named fun _ _ => .read fun _ => .inr rfl

/-- An event is answered with success as soon as its request is read. -/
theorem triggerEvent_cases (collaborators : Collaborators σ) (name : String) (request : Request)
    (engine : Engine σ) :
    RefusedOr engine Succeeded (triggerEvent collaborators name request engine) :=
  .named fun _ _ => .read fun _ => .inr rfl

/-- A rule is shown from an engine that stays as it is. -/
theorem showRule_cases (name : String) (engine : Engine σ) :
    RefusedOr engine Succeeded
      (andThen (readName name) engine fun id => (showRule id engine, engine)) := by
  refine .named fun id _ => ?_
  unfold showRule
  split
  · exact .inr rfl
  · exact .inl (refused_failure (.notFound id) (.refl engine))

/-- Whatever a request is served, it is refused or answered with success. -/
theorem serve_cases (collaborators : Collaborators σ) (route : Route) (request : Request)
    (engine : Engine σ) :
    RefusedOr engine Succeeded (serve collaborators route request engine) := by
  obtain ⟨method, target, contentType, body⟩ := request
  cases route with
  | health | activeRules | scheduleRun => exact .inr rfl
  | stream => exact .inl (refused_plain rfl engine)
  | execution name => exact executeRule_cases collaborators name _ engine
  | event name => exact triggerEvent_cases collaborators name _ engine
  | rules =>
    cases method with
    | post =>
      refine (createRule_cases ⟨.post, target, contentType, body⟩ engine).imp_right ?_
      rintro ⟨id, rule, answer, _⟩
      exact congrArg Response.isSuccess answer
    | get | head | patch | delete | options | other => exact .inr rfl
  | rule name =>
    cases method with
    | patch =>
      refine (changeRule_cases name ⟨.patch, target, contentType, body⟩ engine).imp_right ?_
      rintro ⟨id, rule, _, answer, _⟩
      exact congrArg Response.isSuccess answer
    | delete =>
      refine (deleteRule_cases name engine).imp_right ?_
      rintro ⟨id, _, answer, _⟩
      exact congrArg Response.isSuccess answer
    | get | head | post | options | other => exact showRule_cases name engine

/-- To serve a request to look at something changes nothing. -/
theorem serve_looking (collaborators : Collaborators σ) {route : Route} {request : Request}
    (engine : Engine σ) (looking : request.method = .get) (allowed : route.allows .get = true) :
    (serve collaborators route request engine).2 = engine := by
  obtain ⟨method, target, contentType, body⟩ := request
  obtain rfl : method = .get := looking
  cases route with
  | health | rules | activeRules | stream => rfl
  | rule name =>
    simp only [serve, andThen]
    split <;> rfl
  | execution | event | scheduleRun => cases allowed

/-- Every request is refused or answered with success. -/
theorem handle_cases (collaborators : Collaborators σ) (request : Request) (engine : Engine σ) :
    RefusedOr engine Succeeded (handle collaborators request engine) := by
  unfold handle
  split
  · exact .inr rfl
  · split
    · exact .inl (refused_plain rfl engine)
    · rename_i route _
      split
      · refine (serve_cases collaborators route { request with method := .get } engine).imp_left ?_
        intro refused
        exact ⟨refused.status, Response.not_reportsSuccess_headOnly _, refused.untouched⟩
      · split
        · exact serve_cases collaborators route request engine
        · exact .inl (refused_plain rfl engine)

/-- A request to look at something, or at the head of it, changes nothing. -/
theorem handle_looking (collaborators : Collaborators σ) {request : Request} (engine : Engine σ)
    (looking : request.method = .get ∨ request.method = .head) :
    (handle collaborators request engine).2 = engine := by
  unfold handle
  split
  · rfl
  · split
    · rfl
    · split
      · rename_i head
        exact serve_looking collaborators engine rfl head.2.2
      · split
        · rename_i route _ other allowed
          rcases looking with get | head
          · exact serve_looking collaborators engine get (get ▸ allowed)
          · rw [head] at allowed
            cases route <;> cases allowed
        · rfl

/-- What reports success was served by a route that has the method. -/
theorem served_of_reports
    (reports : (handle collaborators request engine).1.ReportsSuccess) :
    ∃ route, ofTarget? request.target = some route ∧ route.allows request.method = true ∧
      handle collaborators request engine = serve collaborators route request engine := by
  unfold handle at reports ⊢
  split at reports
  · exact absurd reports (Response.not_reportsSuccess_plain 200)
  · rename_i notOptions
    split at reports
    · exact absurd reports (Response.not_reportsSuccess_plain 404)
    · rename_i route found
      split at reports
      · exact absurd reports (Response.not_reportsSuccess_headOnly _)
      · split at reports
        · rename_i notHead allowed
          exact ⟨route, found, allowed, by
            simp only [if_neg notOptions, if_neg notHead, if_pos allowed]⟩
        · exact absurd reports (Response.not_reportsSuccess_plain 405)

/-- Only the path of a rule takes changes and removals. -/
theorem exists_rule_of_allows {route : Route} {method : Method}
    (changing : method = .patch ∨ method = .delete) (allowed : route.allows method = true) :
    ∃ name, route = .rule name := by
  cases route with
  | rule name => exact ⟨name, rfl⟩
  | health | rules | activeRules | execution | event | scheduleRun | stream =>
    rcases changing with rfl | rfl <;> cases allowed

/-- For every state of an engine and every request, whatever its disk does: an answer without
success means that the registry, the stored document, the collaborators and the stream of events are
as before. To look at something changes nothing. A rule that is reported as created or changed is
found in the registry then, and one that is reported as removed is not, as long as no two rules had
its identifier. -/
theorem answers_agree_with_registry (collaborators : Collaborators σ) (request : Request)
    (engine : Engine σ) :
    let answered := handle collaborators request engine
    (answered.1.isSuccess = false → Untouched engine answered.2) ∧
    (request.method = .get ∨ request.method = .head → answered.2 = engine) ∧
    (answered.1.ReportsSuccess → request.method = .post →
      ofTarget? request.target = some .rules → Created answered) ∧
    (answered.1.ReportsSuccess → request.method = .patch →
      ∃ name, ofTarget? request.target = some (.rule name) ∧ Changed name answered) ∧
    (answered.1.ReportsSuccess → request.method = .delete →
      ∃ name, ofTarget? request.target = some (.rule name) ∧ Removed name engine answered) := by
  intro answered
  refine ⟨?_, handle_looking collaborators engine, ?_, ?_, ?_⟩
  · intro unsuccessful
    rcases handle_cases collaborators request engine with refused | success
    · exact refused.untouched
    · cases unsuccessful.symm.trans success
  · intro reports post target
    obtain ⟨route, found, _, served⟩ := served_of_reports reports
    obtain rfl : route = .rules := Option.some.inj (found.symm.trans target)
    have created : answered = createRule request engine := by
      simpa only [serve, post] using served
    rw [created] at reports ⊢
    exact (createRule_cases request engine).resolve_left fun refused => refused.body reports
  · intro reports patch
    obtain ⟨route, found, allowed, served⟩ := served_of_reports reports
    obtain ⟨name, rfl⟩ := exists_rule_of_allows (.inl patch) allowed
    have changed : answered = changeRule name request engine := by
      simpa only [serve, patch] using served
    rw [changed] at reports ⊢
    exact ⟨name, found,
      (changeRule_cases name request engine).resolve_left fun refused => refused.body reports⟩
  · intro reports delete
    obtain ⟨route, found, allowed, served⟩ := served_of_reports reports
    obtain ⟨name, rfl⟩ := exists_rule_of_allows (.inr delete) allowed
    have removed : answered = deleteRule name engine := by
      simpa only [serve, delete] using served
    rw [removed] at reports ⊢
    exact ⟨name, found,
      (deleteRule_cases name engine).resolve_left fun refused => refused.body reports⟩

/-- An engine that welcomes, but whose disk fails as the new document of rules is to get its
name. -/
def unsaving : Engine Unit :=
  { welcoming with
    storage := some ["rules.json"]
    disk := { faults := fun step => if step = 2 then some 0 else none } }

/-- A rule that cannot be saved is refused when its document is written already, and nothing has
happened. Where it can be, it is found after that; the one that welcomes is found as it is changed,
and not found when it is removed. -/
theorem welcoming_answers :
    let failed := handle .logging (registering "night") unsaving
    let created := handle .logging (registering "night") welcoming
    let changed := handle .logging
      ⟨.patch, rulePath "welcome", some "application/json",
        "\x7b\"name\": \"Hello\"\x7d".toUTF8⟩ welcoming
    let removed := handle .logging ⟨.delete, rulePath "welcome", none, .empty⟩ welcoming
    (failed.1.status = 500 ∧ (failed.2.disk.read? ["rules.json.tmp"]).isSome ∧
      Untouched unsaving failed.2) ∧
    (handle .logging ⟨.get, "/api/v1/rules", none, .empty⟩ welcoming).2 = welcoming ∧
    (created.1 = .success (.object [("id", .string "night")]) 201 ∧
      ∃ rule, created.2.find? "night" = some rule) ∧
    (∃ rule, changed.1 = .success rule.toJson ∧ changed.2.find? "welcome" = some rule) ∧
    removed.1 = .success (.object [("removed", .string "welcome")]) ∧
      removed.2.find? "welcome" = none := by
  intro failed created changed removed
  obtain ⟨status, beside, creation, change, removal⟩ :
      failed.1.status = 500 ∧ (failed.2.disk.read? ["rules.json.tmp"]).isSome ∧
        created.1 = .success (.object [("id", .string "night")]) 201 ∧
        changed.1 = .success ({ welcome with name := "Hello" } : Rule).toJson ∧
        removed.1 = .success (.object [("removed", .string "welcome")]) := by
    decide +kernel
  have way : ofTarget? "/api/v1/rules" = some .rules ∧
      ofTarget? (rulePath "welcome") = some (.rule "welcome") ∧
      Percent.decode? "welcome" = some "welcome" := by decide +kernel
  have unsuccessful : failed.1.isSuccess = false := by rw [Response.isSuccess, status]; rfl
  obtain ⟨refused, _⟩ := answers_agree_with_registry .logging (registering "night") unsaving
  obtain ⟨_, looked, _⟩ :=
    answers_agree_with_registry .logging ⟨.get, "/api/v1/rules", none, .empty⟩ welcoming
  obtain ⟨_, _, post, _⟩ := answers_agree_with_registry .logging (registering "night") welcoming
  obtain ⟨_, _, _, patch, _⟩ := answers_agree_with_registry .logging
    ⟨.patch, rulePath "welcome", some "application/json",
        "\x7b\"name\": \"Hello\"\x7d".toUTF8⟩ welcoming
  obtain ⟨_, _, _, _, delete⟩ := answers_agree_with_registry .logging
    ⟨.delete, rulePath "welcome", none, .empty⟩ welcoming
  refine ⟨⟨status, beside, refused unsuccessful⟩, looked (.inl rfl), ⟨creation, ?_⟩, ?_, removal,
    ?_⟩
  · obtain ⟨id, rule, answer, found⟩ :=
      post (creation ▸ Response.reportsSuccess_success _ _) rfl way.1
    obtain rfl : id = "night" := by
      cases answer.symm.trans creation
      rfl
    exact ⟨rule, found⟩
  · obtain ⟨name, target, id, rule, decoded, answer, found⟩ :=
      patch (change ▸ Response.reportsSuccess_success _ _) rfl
    obtain rfl : "welcome" = name := by
      cases way.2.1.symm.trans target
      rfl
    obtain rfl : "welcome" = id := Option.some.inj (way.2.2.symm.trans decoded)
    exact ⟨rule, answer, found⟩
  · obtain ⟨name, target, id, decoded, answer, absent⟩ :=
      delete (removal ▸ Response.reportsSuccess_success _ _) rfl
    obtain rfl : "welcome" = name := by
      cases way.2.1.symm.trans target
      rfl
    obtain rfl : "welcome" = id := Option.some.inj (way.2.2.symm.trans decoded)
    exact absent wellFormed_welcoming.distinct

end Server
end CampusRules
