import CampusRules.Proofs.Calls.Tally
import CampusRules.Proofs.Engine.Evolution

/-!
# What every amendment keeps up

Whatever is asked of an engine, its registry changes by amendments only, and a rule is added only
under an identifier that no other rule has. So a property of registries that each such amendment
keeps up is kept up by every command, by whatever bound collaborators do, and by calls that go on
in any order. Two such properties are that identifiers are distinct, and that a rule which counts
executions tells when it last ran.
-/

namespace CampusRules

open Registry

namespace Amendment

/-- Whether an engine makes an amendment to a registry: it adds no rule but one that has never run,
under an identifier that no other has. -/
def Admissible (rules : List Rule) : Amendment → Prop
  | append rule =>
    (∀ other ∈ rules, other.id ≠ rule.id) ∧ rule.executionCount = 0 ∧ rule.lastExecuted = none
  | _ => True

/-- Whether a property of registries is kept up by all amendments that an engine makes. -/
def KeepUp (property : List Rule → Prop) : Prop :=
  ∀ rules amendment, Admissible rules amendment → property rules → property (apply rules amendment)

/-- A rule of a registry in which one has been altered was there before, or is that one. -/
theorem mem_alterFirst {id : String} {alter : Rule → Rule} {rules : List Rule} {rule : Rule}
    (member : rule ∈ alterFirst id alter rules) : rule ∈ rules ∨ ∃ old ∈ rules, rule = alter old := by
  induction rules with
  | nil => exact .inl member
  | cons first rest inductionHypothesis =>
    unfold alterFirst at member
    split at member
    · rcases List.mem_cons.mp member with rfl | later
      · exact .inr ⟨first, List.mem_cons_self, rfl⟩
      · exact .inl (List.mem_cons_of_mem first later)
    · rcases List.mem_cons.mp member with rfl | later
      · exact .inl List.mem_cons_self
      · rcases inductionHypothesis later with before | ⟨old, before, rfl⟩
        · exact .inl (List.mem_cons_of_mem first before)
        · exact .inr ⟨old, List.mem_cons_of_mem first before, rfl⟩

/-- Amendments keep identifiers distinct. -/
theorem keepUp_distinct : KeepUp Distinct := by
  intro rules amendment admissible distinct
  cases amendment with
  | append rule => exact distinct.append admissible.1
  | erase id => exact distinct.sublist (List.eraseP_sublist.map Rule.id)
  | merge id change =>
    rw [apply, alterFirst_eq_adjust distinct]
    exact distinct.adjust id fun _ => rfl
  | count id time =>
    rw [apply, alterFirst_eq_adjust distinct]
    exact distinct.adjust id fun _ => rfl

end Amendment

/-- Whether every rule that counts executions tells when it last ran. -/
def Registry.Stamped (rules : List Rule) : Prop :=
  ∀ rule ∈ rules, 0 < rule.executionCount → rule.lastExecuted.isSome = true

/-- Amendments leave no rule without the time of its last execution, if it counts any. -/
theorem Amendment.keepUp_stamped : KeepUp Stamped := by
  intro rules amendment admissible stamped
  cases amendment with
  | append rule =>
    intro other member counted
    rcases List.mem_append.mp member with before | new
    · exact stamped other before counted
    · obtain rfl := List.mem_singleton.mp new
      rw [admissible.2.1] at counted
      exact absurd counted (UInt64.lt_irrefl 0)
  | erase id => exact fun rule member => stamped rule (List.mem_of_mem_eraseP member)
  | merge id change =>
    intro rule member counted
    rcases mem_alterFirst member with before | ⟨old, before, rfl⟩
    · exact stamped rule before counted
    · exact stamped old before counted
  | count id time =>
    intro rule member counted
    rcases mem_alterFirst member with before | ⟨old, before, rfl⟩
    · exact stamped rule before counted
    · rfl

namespace Engine

variable {σ : Type} {property : List Rule → Prop}

/-- Whatever happens between two states of an engine leaves its registry with a property that it
had. -/
def Keeps (property : List Rule → Prop) (before after : Engine σ) : Prop :=
  property before.rules → property after.rules

/-- What leaves the registry alone leaves it with every property. -/
theorem Keeps.of_eq {before after : Engine σ} (same : after.rules = before.rules) :
    Keeps property before after := by
  intro holds
  rw [same]
  exact holds

/-- An amendment leaves the registry with a property that amendments keep up. -/
theorem Keeps.of_amendment (keepUp : Amendment.KeepUp property) {before after : Engine σ}
    (amendment : Amendment) (admissible : amendment.Admissible before.rules)
    (rules : after.rules = amendment.apply before.rules) : Keeps property before after := by
  intro holds
  rw [rules]
  exact keepUp _ _ admissible holds

/-- To count an execution is an amendment, whether or not it can be saved. -/
theorem rules_credit (id : String) (time : Instant) (engine : Engine σ) :
    (engine.credit id time).2.rules = (Amendment.count id time).apply engine.rules := by
  rw [credit_engine]
  split
  · rename_i missing
    exact (Amendment.alterFirst_of_absent missing).symm
  · rename_i index position
    rw [save_changes_disk]
    exact Amendment.modify_eq_alterFirst position

/-- Where collaborators leave the registry with a property that amendments keep up, all sections
of an operation do. -/
theorem sections_keep (keepUp : Amendment.KeepUp property) {collaborators : Collaborators σ}
    (deliver : ∀ handoff engine, Keeps property engine (collaborators.deliver handoff engine).2) :
    Sections collaborators (Keeps property) where
  refl _ := .of_eq rfl
  trans earlier later := later ∘ earlier
  look _ := .of_eq rfl
  progress _ _ _ := .of_eq rfl
  action _ _ := .of_eq rfl
  record _ _ := .of_eq rfl
  deliver := deliver
  credit id time engine := .of_amendment keepUp (.count id time) trivial (rules_credit id time engine)
  add new engine := by
    rcases add_outcome new engine with ⟨_, _, untouched⟩ | ⟨done, committed⟩
    · exact .of_eq untouched.rules
    · have unlike := (insert_accepted done).2
      exact .of_amendment keepUp (.append _) ⟨unlike, rfl, rfl⟩ committed.rules
  remove id engine := by
    rcases remove_outcome id engine with
      ⟨_, _, untouched⟩ | ⟨_, _, untouched⟩ | ⟨_, index, position, committed⟩
    · exact .of_eq untouched.rules
    · exact .of_eq untouched.rules
    · refine .of_amendment keepUp (.erase id) trivial ?_
      rw [committed.rules]
      exact Amendment.eraseIdx_eq_eraseP position
  update id change engine := by
    rcases update_outcome id change engine with
      ⟨_, _, untouched⟩ | ⟨_, _, untouched⟩ | ⟨_, index, rule, position, there, _, _, committed⟩
    · exact .of_eq untouched.rules
    · exact .of_eq untouched.rules
    · refine .of_amendment keepUp (.merge id change) trivial ?_
      rw [committed.rules, ← modify_of_getElem? engine.rules (·.merge change) index rule there]
      exact Amendment.modify_eq_alterFirst position

/-- All that bound collaborators do leaves the registry with a property that amendments keep up. -/
theorem Reaches.keeps (keepUp : Amendment.KeepUp property) {before after : Engine σ}
    (reaches : Reaches before after) : Keeps property before after := by
  induction reaches with
  | aside rules _ => exact .of_eq rules
  | trans _ _ earlier later => exact later ∘ earlier
  | command collaborators _ command engine inductionHypothesis =>
    exact (sections_keep keepUp inductionHypothesis).run command engine

/-- With bound collaborators, all sections of an operation leave the registry with a property that
amendments keep up. -/
theorem sections_keep_of_bound (keepUp : Amendment.KeepUp property)
    {collaborators : Collaborators σ} (bound : collaborators.Bound) :
    Sections collaborators (Keeps property) :=
  sections_keep keepUp fun handoff engine => (bound handoff engine).keeps keepUp

end Engine

variable {σ : Type} {property : List Rule → Prop} {collaborators : Collaborators σ}

open Engine

/-- A section of a round leaves the registry with a property that amendments keep up. -/
theorem Round.Step.keeps (keepUp : Amendment.KeepUp property)
    (sections : Sections collaborators (Keeps property)) {round : Round} {found : Engine σ}
    {advance : Advance σ} (step : round.Step collaborators found advance) :
    Keeps property found advance.2.2 := by
  cases step with
  | passes | finds =>
    rw [round.occasion.moment_engine found]
    exact .of_eq rfl
  | @acts rule _ index action _ _ _ performed
  | @fails rule _ index action _ _ _ _ performed =>
    have acted := sections.perform action round.occasion.context
      (found.announceAction (.started rule.id index action.kind))
    rw [performed] at acted
    exact acted
  | @counts rule time => exact .of_amendment keepUp (.count rule.id time) trivial rfl
  | writes => exact .of_eq (by rw [save_changes_disk])
  | answers | skips | begins | misses | unstored | reads | tells => exact .of_eq rfl

/-- A section of a call leaves the registry with a property that amendments keep up. -/
theorem Call.advance_keeps (keepUp : Amendment.KeepUp property)
    (sections : Sections collaborators (Keeps property)) (call : Call) (found : Engine σ) :
    Keeps property found (call.advance collaborators found).2.2 := by
  cases call with
  | carrying round => exact (round.step collaborators found).keeps keepUp sections
  | telling | answered => exact .of_eq rfl
  | asked command =>
    by_cases carries : command.carriesOut = true
    · cases command with
      | execute | trigger => exact .of_eq rfl
      | schedule now => cases now <;> exact .of_eq rfl
      | _ => cases carries
    · have ran := sections.run command found
      simp only [Call.advance, Call.start_of_quiet collaborators (by simpa using carries)]
      exact ran

/-- Calls that go on in any order leave the registry with a property that amendments keep up, and
every section finds it so. -/
theorem Traffic.keeps_follow (keepUp : Amendment.KeepUp property)
    (sections : Sections collaborators (Keeps property)) (callers : List Nat)
    (traffic : Traffic σ) (holds : property traffic.engine.rules) :
    (∀ taken ∈ (traffic.follow collaborators callers).1, property taken.found.rules) ∧
      property (traffic.follow collaborators callers).2.engine.rules := by
  refine follow_induction (fun past reached =>
    (∀ taken ∈ past, property taken.found.rules) ∧ property reached.engine.rules)
    ?_ callers traffic ⟨by simp, holds⟩
  rintro past caller reached taken after ⟨earlier, now⟩ stepped
  obtain ⟨call, _, _, rfl, rfl⟩ := step_eq_some stepped
  refine ⟨?_, call.advance_keeps keepUp sections reached.engine now⟩
  intro other member
  rcases List.mem_append.mp member with before | last
  · exact earlier other before
  · rw [List.mem_singleton.mp last]
    exact now

end CampusRules
