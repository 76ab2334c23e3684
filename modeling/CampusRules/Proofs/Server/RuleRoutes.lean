import CampusRules.Proofs.Engine.Evolution
import CampusRules.Proofs.Server.Percent
import CampusRules.Proofs.Text.Split
import CampusRules.Server.Routes
import Mathlib.Data.List.TakeWhile

/-!
# Where a rule is found

A rule is named in a path by any segment that decodes to its identifier. That path shows the rule,
changes it and removes it, with one exception: where the segment is `active`, the path is that of
the active rules. So one identifier has no path as it is written by its encoding, though a client
may choose it as any other.
-/

namespace CampusRules

open Percent

namespace Route

/-- The path of a rule that a segment names. -/
def rulePath (name : String) : String := "/api/v1/rules/" ++ name

/-- A segment behind the path of the rules is one segment, however it is spelled. -/
theorem segments_rulePath {name : String} (inner : ∀ character ∈ name.toList, IsInner character) :
    segments (pathOf (rulePath name)) = ["api", "v1", "rules", name] := by
  have spelled : (rulePath name).toList = "/api/v1/rules".toList ++ '/' :: name.toList := by
    simp [rulePath]
  have whole : pathOf (rulePath name) = (rulePath name).toList := by
    refine List.takeWhile_eq_self_iff.mpr fun character member => ?_
    have stays : character ≠ '?' ∧ character ≠ '#' := by
      rw [spelled] at member
      rcases List.mem_append.mp member with front | back
      · have fixed : "/api/v1/rules".toList.all
            (fun character => character ≠ '?' ∧ character ≠ '#') = true := by decide +kernel
        exact of_decide_eq_true (List.all_eq_true.mp fixed character front)
      · rcases List.mem_cons.mp back with rfl | within
        · decide
        · exact (inner character within).2
    simp [stays]
  have front : Text.split '/' "/api/v1/rules".toList =
      [[], "api".toList, "v1".toList, "rules".toList] := by decide +kernel
  have single : Text.split '/' name.toList = [name.toList] :=
    Text.split_of_absent fun character member => (inner character member).1
  rw [segments, whole, spelled, Text.split_append, front, single]
  simp

/-- The path of a name leads to the rule, unless it is that of the active rules. -/
theorem ofTarget?_rulePath {name : String} (inner : ∀ character ∈ name.toList, IsInner character)
    (filled : name ≠ "") :
    ofTarget? (rulePath name) = some (if name = "active" then .activeRules else .rule name) := by
  rw [ofTarget?, segments_rulePath inner]
  by_cases fixed : name = "active"
  · subst fixed
    rfl
  · simp [ofSegments?, fixed, filled]

end Route

namespace Server

open Engine Route

variable {σ : Type} {collaborators : Collaborators σ} {engine : Engine σ} {name : String}

/-- A request whose path names a rule is served for that rule, by each of the three methods. -/
theorem handle_rulePath (inner : ∀ character ∈ name.toList, IsInner character) (filled : name ≠ "")
    (free : name ≠ "active") {method : Method} (method_rule : allows (.rule name) method = true)
    (contentType : Option String) (body : ByteArray) :
    handle collaborators ⟨method, rulePath name, contentType, body⟩ engine =
      serve collaborators (.rule name) ⟨method, rulePath name, contentType, body⟩ engine := by
  have route := ofTarget?_rulePath inner filled
  rw [if_neg free] at route
  cases method with
  | get | patch | delete => simp [handle, route, allows]
  | head | post | options | other => cases method_rule

/-- The name that the active rules have in a path is its own encoding. -/
theorem encode_active : encode "active" = "active" := by decide +kernel

/-- The path `active` shows the active rules, and takes no other method. -/
theorem handle_active (contentType : Option String) (body : ByteArray) (engine : Engine σ) :
    handle collaborators ⟨.get, rulePath "active", contentType, body⟩ engine =
        (.success (Rule.listToJson engine.activeRules), engine) ∧
      ∀ method, method = .patch ∨ method = .delete →
        handle collaborators ⟨method, rulePath "active", contentType, body⟩ engine =
          (.plain 405, engine) := by
  have inner := (spells_encode "active").inner
  rw [encode_active] at inner
  have route : ofTarget? (rulePath "active") = some .activeRules :=
    (ofTarget?_rulePath inner (by decide)).trans (congrArg some (if_pos rfl))
  constructor
  · simp [handle, route, allows, serve]
  · rintro method (rfl | rfl) <;> simp [handle, route, allows]

/-- Whether a segment behind the path of the rules is the path of a rule that was registered last.
That rule is shown there. A change that is read and leaves it without a flaw is merged into it, and
it is removed, as long as the rules can be saved. -/
structure IsPathOf (collaborators : Collaborators σ) (engine : Engine σ) (earlier : List Rule)
    (rule : Rule) (name : String) : Prop where
  shown : ∀ contentType body,
    handle collaborators ⟨.get, rulePath name, contentType, body⟩ engine =
      (.success rule.toJson, engine)
  changed : ∀ contentType body change,
    readBody ⟨.patch, rulePath name, contentType, body⟩ RuleChange.read = .ok change →
    (rule.merge change).flaw? = none →
    (engine.save (earlier ++ [rule.merge change])).1 = .ok () →
    let answered := handle collaborators ⟨.patch, rulePath name, contentType, body⟩ engine
    answered.1 = .success (rule.merge change).toJson ∧
      Committed (earlier ++ [rule.merge change]) (.updated rule.id) engine answered.2
  removed : ∀ contentType body, (engine.save earlier).1 = .ok () →
    let answered := handle collaborators ⟨.delete, rulePath name, contentType, body⟩ engine
    answered.1 = .success (.object [("removed", .string rule.id)]) ∧
      Committed earlier (.removed rule.id) engine answered.2

section

variable {earlier : List Rule} {rule : Rule} (rules : engine.rules = earlier ++ [rule])
  (new : ∀ other ∈ earlier, other.id ≠ rule.id)

include rules new

/-- A rule that was registered last under an identifier of its own is found by it. -/
theorem find?_last : engine.find? rule.id = some rule := by
  have absent : earlier.find? (·.id == rule.id) = none := by
    simpa using new
  rw [Engine.find?, rules, List.find?_append, absent]
  simp

/-- A rule that was registered last under an identifier of its own is found behind the others. -/
theorem position?_last : engine.position? rule.id = some earlier.length := by
  have absent : earlier.findIdx? (·.id == rule.id) = none := by
    simpa using new
  rw [Engine.position?, rules, List.findIdx?_append, absent]
  simp

/-- Every segment that names a rule which was registered last is its path, but for `active`. -/
theorem isPathOf_of_spells (named : rule.id ≠ "") (spells : Spells name rule.id)
    (free : name ≠ "active") : IsPathOf collaborators engine earlier rule name := by
  have filled : name ≠ "" := by
    rintro rfl
    have empty : decode? "" = some "" := by decide +kernel
    exact named (Option.some.inj (spells.decoded.symm.trans empty))
  have read : readName name = .ok rule.id := by
    rw [readName, spells.decoded]
  have there : engine.rules[earlier.length]? = some rule := by
    rw [rules, List.getElem?_concat_length]
  constructor
  case shown =>
    intro contentType body
    rw [handle_rulePath spells.inner filled free rfl]
    simp only [serve, read, andThen, showRule, find?_last rules new]
  case changed =>
    intro contentType body change readChange flawless saved
    have set : engine.rules.set earlier.length (rule.merge change) =
        earlier ++ [rule.merge change] := by
      rw [rules]
      simp
    obtain ⟨done, committed⟩ := update_of_saved (position?_last rules new) there flawless
      (set ▸ saved)
    rw [set] at committed
    have found : (engine.update rule.id change).2.find? rule.id = some (rule.merge change) :=
      find?_last committed.rules new
    rw [handle_rulePath spells.inner filled free rfl]
    rcases outcome : engine.update rule.id change with ⟨answer, after⟩
    rw [outcome] at done committed found
    obtain rfl : answer = .ok true := done
    simp only [serve, changeRule, read, readChange, andThen, outcome, showRule, found, true_and]
    exact committed
  case removed =>
    intro contentType body saved
    have erased : engine.rules.eraseIdx earlier.length = earlier := by
      rw [rules, List.eraseIdx_append_of_length_le (Nat.le_refl _)]
      simp
    obtain ⟨done, committed⟩ := remove_of_saved (position?_last rules new) (erased.symm ▸ saved)
    rw [erased] at committed
    rw [handle_rulePath spells.inner filled free rfl]
    rcases outcome : engine.remove rule.id with ⟨answer, after⟩
    rw [outcome] at done committed
    obtain rfl : answer = .ok true := done
    simp only [serve, deleteRule, read, andThen, outcome, true_and]
    exact committed

end

/-- The path `active` is that of no rule. -/
theorem not_isPathOf_active (earlier : List Rule) (rule : Rule) :
    ¬IsPathOf collaborators engine earlier rule "active" := by
  intro path
  have shown := path.shown none .empty
  rw [(handle_active none .empty engine).1] at shown
  cases congrArg (·.1.body) shown

/-- What is answered with an identifier and the status of a creation has added a rule. -/
theorem of_created {contentType : Option String} {body : ByteArray} {id : String}
    {after : Engine σ}
    (created : handle collaborators ⟨.post, "/api/v1/rules", contentType, body⟩ engine =
      (.success (.object [("id", .string id)]) 201, after)) :
    ∃ new, readBody ⟨.post, "/api/v1/rules", contentType, body⟩ NewRule.read = .ok new ∧
      engine.add new = (.ok id, after) := by
  have route : ofTarget? "/api/v1/rules" = some .rules := by decide +kernel
  have served : handle collaborators ⟨.post, "/api/v1/rules", contentType, body⟩ engine =
      createRule ⟨.post, "/api/v1/rules", contentType, body⟩ engine := by
    simp [handle, route, allows, serve]
  rw [served, createRule] at created
  cases read : readBody ⟨.post, "/api/v1/rules", contentType, body⟩ NewRule.read with
  | error status =>
    rw [read] at created
    cases congrArg (·.1.body) created
  | ok new =>
    rw [read] at created
    refine ⟨new, rfl, ?_⟩
    rcases outcome : engine.add new with ⟨failure | given, left⟩
    · simp only [andThen, outcome] at created
      cases congrArg (·.1.body) created
    · simp only [andThen, outcome] at created
      cases created
      rfl

/-- A rule that is registered by a request is found, changed and removed under every segment that
names it, if and only if this is not `active`. So it has a path as its encoding, unless it is called
`active` itself; and under that path there is no rule to be shown, changed or removed. -/
theorem created_rule_has_path_iff (collaborators : Collaborators σ) (engine after : Engine σ)
    (contentType : Option String) (body : ByteArray) (id : String)
    (created : handle collaborators ⟨.post, "/api/v1/rules", contentType, body⟩ engine =
      (.success (.object [("id", .string id)]) 201, after)) :
    ∃ new, readBody ⟨.post, "/api/v1/rules", contentType, body⟩ NewRule.read = .ok new ∧
      (engine.make new).1.id = id ∧ after.rules = engine.rules ++ [(engine.make new).1] ∧
      (∀ name, Spells name id →
        (IsPathOf collaborators after engine.rules (engine.make new).1 name ↔ name ≠ "active")) ∧
      (IsPathOf collaborators after engine.rules (engine.make new).1 (encode id) ↔
        id ≠ "active") ∧
      ∀ contentType body,
        handle collaborators ⟨.get, rulePath "active", contentType, body⟩ after =
          (.success (Rule.listToJson after.activeRules), after) ∧
        ∀ method, method = .patch ∨ method = .delete →
          handle collaborators ⟨method, rulePath "active", contentType, body⟩ after =
            (.plain 405, after) := by
  obtain ⟨new, read, added⟩ := of_created created
  have accepted : (engine.add new).1 = .ok id := by rw [added]
  obtain ⟨_, unlike⟩ := insert_accepted accepted
  obtain ⟨named, rules⟩ : (engine.make new).1.id = id ∧
      after.rules = engine.rules ++ [(engine.make new).1] := by
    rcases add_outcome new engine with ⟨failure, failed, _⟩ | ⟨done, committed⟩
    · rw [added] at failed
      cases failed
    · rw [added] at done committed
      exact ⟨(Except.ok.inj done).symm, committed.rules⟩
  have filled : (engine.make new).1.id ≠ "" := id_ofNew_ne new _ _
  have path (name : String) (spells : Spells name id) :
      IsPathOf collaborators after engine.rules (engine.make new).1 name ↔ name ≠ "active" := by
    constructor
    · rintro leads rfl
      exact not_isPathOf_active _ _ leads
    · exact isPathOf_of_spells rules unlike filled (named ▸ spells)
  refine ⟨new, read, named, rules, path, ?_, fun contentType body =>
    handle_active contentType body after⟩
  rw [path _ (spells_encode id)]
  exact not_congr ⟨fun same => encode_injective (same.trans encode_active.symm),
    fun same => same ▸ encode_active⟩

/-- A request to register a rule that takes note of whoever enrols. -/
def registering (id : String) : Request where
  method := .post
  target := "/api/v1/rules"
  contentType := some "application/json"
  body := String.toUTF8 <|
    "\x7b\"id\": \"" ++ id ++ "\", \"name\": \"Notes\", \"conditions\": [], \"actions\": [], " ++
      "\"trigger\": \x7b\"type\": \"event\", \"eventName\": \"enrolled\"\x7d\x7d"

/-- What an engine that welcomes answers to it, and becomes. -/
def registered (id : String) : Response × Engine Unit :=
  handle .logging (registering id) welcoming

/-- A rule whose identifier holds a slash is found under that identifier, with the slash escaped by
digits in either case. -/
theorem slashed_rule_has_path :
    (registered "night/shift").1 = .success (.object [("id", .string "night/shift")]) 201 ∧
      ∃ rule, rule.id = "night/shift" ∧
        (registered "night/shift").2.rules = welcoming.rules ++ [rule] ∧
        IsPathOf .logging (registered "night/shift").2 welcoming.rules rule "night%2fshift" ∧
        IsPathOf .logging (registered "night/shift").2 welcoming.rules rule "night%2Fshift" := by
  have answered : (registered "night/shift").1 =
      .success (.object [("id", .string "night/shift")]) 201 := by decide +kernel
  have created : registered "night/shift" =
      (.success (.object [("id", .string "night/shift")]) 201, (registered "night/shift").2) := by
    rw [← answered]
  obtain ⟨new, _, named, rules, path, encoded, _⟩ :=
    created_rule_has_path_iff .logging welcoming (registered "night/shift").2
      (some "application/json") (registering "night/shift").body "night/shift" created
  have spelled : encode "night/shift" = "night%2fshift" := by decide +kernel
  have other : Spells "night%2Fshift" "night/shift" := by
    have inner :
        "night%2Fshift".toList.all (fun character => decide (IsInner character)) = true := by
      decide +kernel
    exact ⟨by decide +kernel,
      fun character member => of_decide_eq_true (List.all_eq_true.mp inner character member)⟩
  refine ⟨answered, (welcoming.make new).1, named, rules, ?_, (path _ other).mpr (by decide)⟩
  rw [← spelled]
  exact encoded.mpr (by decide)

/-- A rule that is called `active` is registered, but the path of that name shows all active rules,
and takes neither a change nor a removal. -/
theorem active_rule_has_no_path :
    let after := (registered "active").2
    (registered "active").1 = .success (.object [("id", .string "active")]) 201 ∧
      after.rules.map Rule.id = ["welcome", "active"] ∧ encode "active" = "active" ∧
      (handle .logging ⟨.get, rulePath "active", none, .empty⟩ after).1 =
        .success (Rule.listToJson after.rules) ∧
      (∀ method, method = .patch ∨ method = .delete →
        handle .logging
            ⟨method, rulePath "active", some "application/json", "\x7b\x7d".toUTF8⟩ after =
          (.plain 405, after)) ∧
      ¬∃ rule, IsPathOf .logging after welcoming.rules rule (encode "active") := by
  obtain ⟨answered, named, all⟩ :
      (registered "active").1 = .success (.object [("id", .string "active")]) 201 ∧
        (registered "active").2.rules.map Rule.id = ["welcome", "active"] ∧
        (registered "active").2.activeRules = (registered "active").2.rules := by
    decide +kernel
  refine ⟨answered, named, encode_active, ?_, (handle_active _ _ _).2, ?_⟩
  · rw [(handle_active none .empty _).1, all]
  · rw [encode_active]
    rintro ⟨rule, path⟩
    exact not_isPathOf_active _ _ path

end Server
end CampusRules
