import CampusRules.Proofs.Calls.Effect

/-!
# What a call answers is what it has done

A call that is answered has made exactly the amendments that its answer tells of. A change of
the registry that is reported was made once; one that is refused, fails or finds no rule was not
made. The rules that a call reports as carried out are those whose executions it has counted, in
that order.

That holds whatever other calls do in between, and for all collaborators.
-/

namespace CampusRules

/-- The amendments that a call has to have made for its answer to be true. -/
def Command.Accounts (command : Command) (outcome : Except Failure Answer)
    (amendments : List Amendment) : Prop :=
  match command, outcome with
  | .add new, .ok (.added id) => ∃ fresh now,
      amendments = [.append (Rule.ofNew new fresh now)] ∧ (Rule.ofNew new fresh now).id = id
  | .remove id, .ok (.done true) => amendments = [.erase id]
  | .update id change, .ok (.done true) => amendments = [.merge id change]
  | .execute id _, .ok (.done ran) =>
    amendments.map Amendment.countedId? = if ran then [some id] else []
  | _, .ok (.ran ids) => amendments.map Amendment.countedId? = ids.map some
  | _, _ => amendments = []

/-- The rule whose execution is counted already but not yet reported. -/
def Stage.unreported : Stage → List String
  | .counted id _ | .writing id _ _ | .ended id _ => [id]
  | _ => []

/-- The rule that is carried out and whose execution may still be counted. -/
def Stage.underway : Stage → List String
  | .found rule _ | .acting rule _ _ _ => [rule.id]
  | _ => []

variable {σ : Type} {collaborators : Collaborators σ}

namespace Round

/-- What a section of a round comes to that does not answer the call: executions are counted
only of rules whose turn it is, and they stay on the list of those to be reported. -/
structure Moves (round next : Round) (deeds : List Deed) (ids : List String) : Prop where
  command : next.command = round.command
  counts : (Deed.amendments deeds).map Amendment.countedId? = ids.map some
  reports : next.ran ++ next.stage.unreported = round.ran ++ round.stage.unreported ++ ids
  turns : (ids ++ next.stage.underway ++ next.waiting).Sublist
    (round.stage.underway ++ round.waiting)

/-- A section that counts nothing and keeps the turns moves on. -/
theorem Moves.of_silent {round next : Round} {deeds : List Deed}
    (command : next.command = round.command) (silent : Deed.amendments deeds = [])
    (reports : next.ran ++ next.stage.unreported = round.ran ++ round.stage.unreported)
    (turns : (next.stage.underway ++ next.waiting).Sublist
      (round.stage.underway ++ round.waiting)) : round.Moves next deeds [] :=
  ⟨command, by rw [silent]; rfl, by rw [reports, List.append_nil], turns⟩

/-- A section of a round answers the call, because no rule is left, or moves on. -/
theorem Step.moves {round : Round} {found left : Engine σ} {deeds : List Deed} {after : Call}
    (step : round.Step collaborators found (deeds, after, left)) :
    (round.stage = .next ∧ deeds = [] ∧
        after = .answered (.ok (round.command.conclusion round.ran))) ∨
      ∃ next ids, after = .carrying next ∧ round.Moves next deeds ids := by
  have silent (message : Option Handoff) : Deed.amendments (message.toList.map .handed) = [] := by
    cases message <;> rfl
  cases step with
  | answers stage => exact .inl ⟨stage, rfl, rfl⟩
  | passes stage waits =>
    refine .inr ⟨_, [], rfl, .of_silent rfl rfl ?_ ?_⟩ <;>
      simp [stage, waits, Stage.unreported, Stage.underway]
  | @finds id _ rule stage waits version =>
    obtain rfl : rule.id = id := by
      simpa using List.find?_some (Option.filter_eq_some_iff.mp version).1
    refine .inr ⟨_, [], rfl, .of_silent rfl rfl ?_ ?_⟩ <;>
      simp [stage, waits, Stage.unreported, Stage.underway]
  | acts stage | fails stage =>
    refine .inr ⟨_, [], rfl, .of_silent rfl (silent _) ?_ ?_⟩ <;>
      simp [stage, Stage.unreported, Stage.underway]
  | @misses rule _ _ stage | @counts rule _ _ _ stage =>
    refine .inr ⟨_, [rule.id], rfl, rfl, rfl, ?_, ?_⟩ <;>
      simp [stage, Stage.unreported, Stage.underway]
  | skips stage | begins stage | unstored stage | reads stage | writes stage | tells stage =>
    refine .inr ⟨_, [], rfl, .of_silent rfl rfl ?_ ?_⟩ <;>
      simp [stage, Stage.unreported, Stage.underway]

end Round

/-- A round that is answered reports the executions that it has counted. -/
theorem Course.counts {round : Round} {sections : List (Section σ)}
    {outcome : Except Failure Answer}
    (course : Course collaborators (.carrying round) sections (.answered outcome)) :
    ∃ ids, (Deed.amendments (Section.allDeeds sections)).map Amendment.countedId? = ids.map some ∧
      ids.Sublist (round.stage.underway ++ round.waiting) ∧
      outcome = .ok (round.command.conclusion (round.ran ++ round.stage.unreported ++ ids)) := by
  generalize start : Call.carrying round = call at course
  generalize finish : Call.answered outcome = last at course
  induction course generalizing round with
  | done call =>
    subst start
    cases finish
  | @step caller call found rest last others inductionHypothesis =>
    subst start finish
    have step := round.step collaborators found
    rcases advanced : round.advance collaborators found with ⟨deeds, after, left⟩
    have advances : (Call.carrying round).advance collaborators found = _ := advanced
    rw [advanced] at step
    rw [advances] at others inductionHypothesis ⊢
    rcases step.moves with ⟨stage, rfl, rfl⟩ | ⟨next, ids, rfl, moves⟩
    · have silent : Section.allDeeds rest = [] := others.silent rfl
      cases others.idle.1
      refine ⟨[], ?_, List.nil_sublist _, ?_⟩
      · simp only [Section.allDeeds, List.flatMap_cons, List.nil_append] at silent ⊢
        rw [silent]
        rfl
      · simp [stage, Stage.unreported]
    · obtain ⟨more, counts, turns, answer⟩ := inductionHypothesis rfl rfl
      refine ⟨ids ++ more, ?_, ?_, ?_⟩
      · simp only [Section.allDeeds, List.flatMap_cons, Deed.amendments_append, List.map_append]
        rw [moves.counts]
        exact congrArg (ids.map some ++ ·) counts
      · have later := (List.Sublist.refl ids).append turns
        rw [← List.append_assoc] at later
        exact later.trans moves.turns
      · rw [answer, moves.command, moves.reports, List.append_assoc]

namespace Command

/-- A call that is refused, fails, or changes the registry has made the amendment that its
answer tells of. -/
theorem accounts_deeds {command : Command} (quiet : command.carriesOut = false)
    (found : Engine σ) : command.Accounts (found.run collaborators command).1
      (Deed.amendments (command.deeds found (found.run collaborators command).1)) := by
  cases command with
  | add new =>
    rcases Engine.add_outcome new found with ⟨failure, failed, _⟩ | ⟨done, _⟩
    · simp only [Engine.run, Engine.answered, failed, Except.map]
      cases failure <;> rfl
    · simp only [Engine.run, Engine.answered, done, Except.map]
      exact ⟨_, _, rfl, rfl⟩
  | remove id =>
    rcases outcome : (found.remove id).1 with failure | changed
    · simp only [Engine.run, Engine.answered, outcome, Except.map]
      cases failure <;> rfl
    · simp only [Engine.run, Engine.answered, outcome, Except.map]
      cases changed <;> rfl
  | update id change =>
    rcases outcome : (found.update id change).1 with failure | changed
    · simp only [Engine.run, Engine.answered, outcome, Except.map]
      cases failure <;> rfl
    · simp only [Engine.run, Engine.answered, outcome, Except.map]
      cases changed <;> rfl
  | get | rules | activeRules => rfl
  | execute | trigger | schedule => cases quiet

/-- A call that has carried out rules answers with the executions that it has counted. -/
theorem accounts_conclusion {command : Command} {ids : List String} {amendments : List Amendment}
    (carries : command.carriesOut = true)
    (counts : amendments.map Amendment.countedId? = ids.map some)
    (turns : ∀ id context, command = .execute id context → ids.Sublist [id]) :
    command.Accounts (.ok (command.conclusion ids)) amendments := by
  cases command with
  | execute id context =>
    simp only [Accounts, conclusion, counts]
    rcases List.sublist_singleton.mp (turns id context rfl) with rfl | rfl <;> rfl
  | trigger | schedule => exact counts
  | _ => cases carries

end Command

/-- A call that begins its round at once reports the executions that it has counted. -/
theorem Course.accounts_of_begins {asked command : Command} {occasion : Occasion}
    {selection : Engine σ → List String} {sections : List (Section σ)}
    {outcome : Except Failure Answer} (carries : command.carriesOut = true)
    (begins : ∀ found, Call.start collaborators asked found =
      ([], .begin asked occasion (selection found), found))
    (answers : ∀ ids, asked.conclusion ids = command.conclusion ids)
    (turns : ∀ id context, command = .execute id context → ∀ found, selection found = [id])
    (course : Course collaborators (.asked asked) sections (.answered outcome)) :
    command.Accounts outcome (Deed.amendments (Section.allDeeds sections)) := by
  cases course with
  | @step caller _ found rest _ others =>
    have advanced : (Call.asked asked).advance collaborators found =
      ([], .begin asked occasion (selection found), found) := begins found
    rw [advanced] at others ⊢
    obtain ⟨ids, counts, within, rfl⟩ := others.counts
    simp only [List.nil_append, Stage.unreported, Stage.underway, answers] at within ⊢
    apply Command.accounts_conclusion carries counts
    intro id context asks
    rw [← turns id context asks found]
    exact within

/-- What a call has done by the time that it is answered is what it answers. -/
theorem Course.accounts {command : Command} {sections : List (Section σ)}
    {outcome : Except Failure Answer}
    (course : Course collaborators (.asked command) sections (.answered outcome)) :
    command.Accounts outcome (Deed.amendments (Section.allDeeds sections)) := by
  by_cases carries : command.carriesOut = true
  · cases command with
    | execute id context =>
      apply course.accounts_of_begins carries (fun _ => rfl) (fun _ => rfl)
      rintro _ _ ⟨⟩ _
      rfl
    | trigger event context =>
      exact course.accounts_of_begins carries (fun _ => rfl) (fun _ => rfl) nofun
    | schedule now =>
      cases now with
      | some now => exact course.accounts_of_begins carries (fun _ => rfl) (fun _ => rfl) nofun
      | none =>
        cases course with
        | step caller _ found others =>
          have later : Course collaborators (.asked (.schedule (some found.look.1))) _ _ := others
          have same (ids : List String) : (Command.schedule (some found.look.1)).conclusion ids =
            (Command.schedule none).conclusion ids := rfl
          have accounts := later.accounts_of_begins rfl (fun _ => rfl) same nofun
          exact accounts
    | _ => cases carries
  · have quiet : command.carriesOut = false := by simpa using carries
    cases course with
    | @step caller _ found rest _ others =>
      have started : (Call.asked command).advance collaborators found =
          Call.start collaborators command found := rfl
      rw [started, Call.start_of_quiet collaborators quiet] at others ⊢
      cases others with
      | @step _ _ _ last _ told =>
        have silent : Section.allDeeds last = [] := told.silent rfl
        cases told.idle.1
        simp only [Section.allDeeds, List.flatMap_cons] at silent ⊢
        rw [silent, Call.advance, List.append_nil, List.append_nil]
        exact Command.accounts_deeds quiet found

end CampusRules
