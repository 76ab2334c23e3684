import CampusRules.Proofs.Calls.Basic

/-!
# What a section of a round can be

A round goes on in one of thirteen ways. `Round.step` lists them, each with what it needs, what
it does and where it leads, so that what is proved about all sections of a round is proved for
each of these and never looks at how a section is computed.
-/

namespace CampusRules.Round

open Engine

variable {σ : Type}

/-- The ways in which a round goes on by a section, on the engine that the section finds. -/
inductive Step (collaborators : Collaborators σ) (round : Round) (found : Engine σ) :
    Advance σ → Prop where
  | answers (stage : round.stage = .next) (waiting : round.waiting = []) :
      Step collaborators round found
        ([], .answered (.ok (round.command.conclusion round.ran)), found)
  | passes {id : String} {waiting : List String} (stage : round.stage = .next)
      (waits : round.waiting = id :: waiting)
      (version : (found.find? id).filter (·.isActive) = none) :
      Step collaborators round found ([.looked id none],
        .carrying { round with stage := .next, waiting }, (round.occasion.moment found).2)
  | finds {id : String} {waiting : List String} {rule : Rule} (stage : round.stage = .next)
      (waits : round.waiting = id :: waiting)
      (version : (found.find? id).filter (·.isActive) = some rule) :
      Step collaborators round found ([.looked id (some rule)],
        .carrying { round with stage := .found rule (round.occasion.moment found).1, waiting },
        (round.occasion.moment found).2)
  | skips {rule : Rule} {time : Instant} (stage : round.stage = .found rule time)
      (holds : Conditions.hold rule.conditions round.occasion.context = false) :
      Step collaborators round found ([.decided false], .carrying { round with stage := .next },
        (found.announce (.triggered rule.id round.occasion.reason)).announce (.skipped rule.id))
  | begins {rule : Rule} {time : Instant} (stage : round.stage = .found rule time)
      (holds : Conditions.hold rule.conditions round.occasion.context = true) :
      Step collaborators round found ([.decided true],
        .carrying { round with stage := .acting rule time 0 rule.actions },
        found.announce (.triggered rule.id round.occasion.reason))
  | acts {rule : Rule} {time : Instant} {index : Nat} {action : Action} {left : List Action}
      {after : Engine σ} (stage : round.stage = .acting rule time index (action :: left))
      (performed : perform collaborators action round.occasion.context
        (found.announceAction (.started rule.id index action.kind)) = (.ok (), after)) :
      Step collaborators round found
        ((action.message? collaborators.assisted round.occasion.context).toList.map .handed,
          .carrying { round with stage := .acting rule time (index + 1) left },
          after.announceAction (.completed rule.id index))
  | fails {rule : Rule} {time : Instant} {index : Nat} {action : Action} {left : List Action}
      {after : Engine σ} {failure : Failure}
      (stage : round.stage = .acting rule time index (action :: left))
      (performed : perform collaborators action round.occasion.context
        (found.announceAction (.started rule.id index action.kind)) = (.error failure, after)) :
      Step collaborators round found
        ((action.message? collaborators.assisted round.occasion.context).toList.map .handed,
          .carrying { round with stage := .next },
          (after.announceAction (.failed rule.id index failure.message)).announce
            (.failed rule.id failure.message))
  | misses {rule : Rule} {time : Instant} {index : Nat}
      (stage : round.stage = .acting rule time index [])
      (gone : found.position? rule.id = none) :
      Step collaborators round found ([.amended (.count rule.id time)],
        .carrying { round with stage := .ended rule.id 0 }, found)
  | counts {rule : Rule} {time : Instant} {index : Nat} {number : UInt64}
      (stage : round.stage = .acting rule time index [])
      (bumped : (found.bump rule.id time).1 = some number) :
      Step collaborators round found ([.amended (.count rule.id time)],
        .carrying { round with stage := .counted rule.id number },
        { found with rules := Amendment.apply found.rules (.count rule.id time) })
  | unstored {id : String} {number : UInt64} (stage : round.stage = .counted id number)
      (storage : found.storage = none) :
      Step collaborators round found
        ([], .carrying { round with stage := .ended id number }, found)
  | reads {id : String} {number : UInt64} {location : Location}
      (stage : round.stage = .counted id number) (storage : found.storage = some location) :
      Step collaborators round found
        ([], .carrying { round with stage := .writing id number found.rules }, found)
  | writes {id : String} {number : UInt64} {snapshot : List Rule}
      (stage : round.stage = .writing id number snapshot) :
      Step collaborators round found ([.saved (found.save snapshot).1],
        .carrying { round with stage := .ended id number }, (found.save snapshot).2)
  | tells {id : String} {number : UInt64} (stage : round.stage = .ended id number) :
      Step collaborators round found ([],
        .carrying { round with stage := .next, ran := round.ran ++ [id] },
        found.announce (.executed id number))

variable {collaborators : Collaborators σ}

/-- The section that looks a rule up answers, passes the rule over, or finds it. -/
theorem step_lookUp {round : Round} (stage : round.stage = .next) (found : Engine σ) :
    Step collaborators round found (round.lookUp found) := by
  have same := round.occasion.moment_engine found
  have lookup (id : String) : (round.occasion.moment found).2.find? id = found.find? id := by
    rw [same]
    rfl
  unfold lookUp
  split
  · rename_i waiting
    exact .answers stage waiting
  · rename_i id waiting waits
    simp only [lookup]
    split
    · rename_i version
      exact .passes stage waits version
    · rename_i rule version
      exact .finds stage waits version

/-- The section that counts an execution finds the rule gone, or counts it. -/
theorem step_count {round : Round} {rule : Rule} {time : Instant} {index : Nat}
    (stage : round.stage = .acting rule time index []) (found : Engine σ) :
    Step collaborators round found (round.count rule.id time found) := by
  have bumped := bump_engine rule.id time found
  unfold Round.count
  cases position : found.position? rule.id with
  | none =>
    have same : found.bump rule.id time = (none, found) := by simp only [bump, position]
    rw [same]
    exact .misses stage position
  | some place =>
    obtain ⟨present, there, _⟩ := position?_rule position
    have number : (found.bump rule.id time).1 = some (present.executed time).executionCount := by
      simp [bump, position, there]
    have whole : found.bump rule.id time = (_, _) := Prod.ext number bumped
    rw [whole]
    exact .counts stage number

variable (collaborators) in
/-- Every section of a round is one of these. -/
theorem step (round : Round) (found : Engine σ) :
    Step collaborators round found (round.advance collaborators found) := by
  unfold advance
  split
  · exact step_lookUp ‹_› found
  · rename_i rule time stage
    unfold decideOn
    dsimp only
    split
    · exact .begins stage ‹_›
    · exact .skips stage (Bool.eq_false_iff.mpr ‹_›)
  · rename_i rule time index action left stage
    unfold act
    dsimp only
    split
    · exact .acts stage ‹_›
    · exact .fails stage ‹_›
  · exact step_count ‹_› found
  · unfold snapshot
    split
    · exact .unstored ‹_› ‹_›
    · exact .reads ‹_› ‹_›
  · exact .writes ‹_›
  · exact .tells ‹_›

end CampusRules.Round
