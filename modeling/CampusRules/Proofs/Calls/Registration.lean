import CampusRules.Proofs.Calls.Account
import CampusRules.Proofs.Calls.Tally
import CampusRules.Proofs.Engine.Dispatch
import CampusRules.Proofs.Engine.Evolution

/-!
# Which registration an execution is counted for

A rule is known by its identifier alone. When it is removed and another one is registered under
the same identifier, that is another registration, but an execution that looked up the earlier one
cannot tell: it is counted for whatever is registered by the time that it is over.

`Books` keeps what the engine does not: how often each identifier was registered, which
registration each caller has looked up, and for which one each execution was counted. The count of
a rule then has two parts: the executions that looked up this very registration and carried out all
their actions, and those that it inherits from registrations under its identifier before it. A
collaborator that calls back is one more caller.
-/

namespace CampusRules

open Registry

/-- A registration: an identifier, and how often a rule had been added under it by then. -/
structure Registration where
  id : String
  number : Nat
  deriving DecidableEq

/-- An execution that has carried out all its actions: what it had looked up, and what it was
counted for, if there still was a rule. -/
structure Completion where
  looked : Option Registration
  counted : Option Registration
  deriving DecidableEq

/-- The identifiers of the rules that were added, the registration that each caller has looked up
last, and the executions that have carried out all their actions. -/
structure Books where
  added : List String := []
  looking : Nat → Option Registration := fun _ => none
  completions : List Completion := []

/-- Whether a deed is entered in the books. -/
def Deed.isEntered : Deed → Bool
  | .looked _ (some _) | .amended (.append _) | .amended (.count _ _) => true
  | _ => false

variable {σ : Type}

namespace Books

/-- The latest registration under an identifier. -/
def current (books : Books) (id : String) : Registration := ⟨id, books.added.count id⟩

/-- A caller looks up a rule. -/
def look (books : Books) (caller : Nat) (id : String) : Books :=
  { books with
    looking := fun other => if other = caller then some (books.current id) else books.looking other }

/-- A rule is added. -/
def add (books : Books) (id : String) : Books := { books with added := books.added ++ [id] }

/-- The execution of a caller has carried out all its actions, and is counted for a rule. -/
def complete (books : Books) (caller : Nat) (counted : Option Registration) : Books :=
  { books with completions := books.completions ++ [⟨books.looking caller, counted⟩] }

/-- Enters a section. An execution is counted for the latest registration, if that one is still
there. -/
def enter (books : Books) (taken : Section σ) : Books :=
  match taken.deeds with
  | .looked id (some _) :: _ => books.look taken.caller id
  | .amended (.append rule) :: _ => books.add rule.id
  | .amended (.count id _) :: _ =>
    books.complete taken.caller ((taken.found.find? id).map fun _ => books.current id)
  | _ => books

/-- The books of sections, in their order. -/
def of (sections : List (Section σ)) : Books := sections.foldl enter {}

/-- How many executions have looked up a registration and carried out all their actions. -/
def runs (books : Books) (registration : Registration) : Nat :=
  books.completions.countP (·.looked = some registration)

/-- How many executions were counted for a registration. -/
def counts (books : Books) (registration : Registration) : Nat :=
  books.completions.countP (·.counted = some registration)

/-- How many executions were counted for a registration that had looked up another. -/
def inherits (books : Books) (registration : Registration) : Nat :=
  books.completions.countP fun completion =>
    completion.counted = some registration ∧ completion.looked ≠ some registration

/-- Where nothing is to be entered, the books stay as they are. -/
theorem enter_of_silent (books : Books) {taken : Section σ}
    (silent : ∀ deed ∈ taken.deeds, deed.isEntered = false) : books.enter taken = books := by
  unfold enter
  split
  · rename_i deeds
    cases silent _ (deeds ▸ List.mem_cons_self)
  · rename_i deeds
    cases silent _ (deeds ▸ List.mem_cons_self)
  · rename_i deeds
    cases silent _ (deeds ▸ List.mem_cons_self)
  · rfl

/-- The number of a registration grows when a rule is added under its identifier, and with no
other. -/
theorem current_add (books : Books) (id other : String) :
    (books.add id).current other =
      ⟨other, (books.current other).number + if id = other then 1 else 0⟩ := by
  rw [current, current, add, List.count_append, List.count_singleton]
  by_cases same : id = other <;> simp [same]

end Books

/-- The rule whose execution a call may still count. -/
def Call.underway : Call → List String
  | .carrying round => round.stage.underway
  | _ => []

/-- Registries whose rules have the records of the same rules. No rule is new. -/
structure KeepsRecords (before after : List Rule) : Prop where
  distinct : Distinct before → Distinct after
  record : ∀ rule ∈ after, ∃ old ∈ before, old.id = rule.id ∧
    old.executionCount = rule.executionCount ∧ old.lastExecuted = rule.lastExecuted

/-- The same rules have the same records. -/
theorem KeepsRecords.of_eq {before after : List Rule} (same : after = before) :
    KeepsRecords before after := by
  subst same
  exact ⟨id, fun rule member => ⟨rule, member, rfl, rfl, rfl⟩⟩

/-- What a section does as far as the books are concerned: nothing, or it adds a rule that has
never run, or it looks a rule up, or it counts an execution that was underway. -/
inductive Entry (found : Engine σ) (call : Call) : Advance σ → Prop where
  | keeps {deeds : List Deed} {after : Call} {left : Engine σ}
      (silent : ∀ deed ∈ deeds, deed.isEntered = false)
      (records : KeepsRecords found.rules left.rules)
      (underway : after.underway = [] ∨ after.underway = call.underway) :
      Entry found call (deeds, after, left)
  | adds {rule : Rule} {after : Call} {left : Engine σ}
      (new : ∀ other ∈ found.rules, other.id ≠ rule.id)
      (unused : rule.executionCount = 0 ∧ rule.lastExecuted = none)
      (rules : left.rules = found.rules ++ [rule]) (underway : after.underway = []) :
      Entry found call ([.amended (.append rule), .saved (.ok ())], after, left)
  | looks {id : String} {rule : Rule} {after : Call} {left : Engine σ}
      (rules : left.rules = found.rules) (underway : after.underway = [id]) :
      Entry found call ([.looked id (some rule)], after, left)
  | counts {id : String} {time : Instant} {after : Call} {left : Engine σ}
      (underway : call.underway = [id])
      (rules : left.rules = (Amendment.count id time).apply found.rules)
      (idle : after.underway = []) :
      Entry found call ([.amended (.count id time)], after, left)

variable {collaborators : Collaborators σ}

namespace Entry

open Engine

/-- A change of the registry that is refused or fails, or finds no rule, keeps the records. -/
theorem of_untouched {command : Command} {outcome : Except Failure Answer}
    {found after : Engine σ} {events : List Event} (untouched : Untouched found after)
    (silent : ∀ deed ∈ command.deeds found outcome, deed.isEntered = false) :
    Entry found (.asked command) (command.deeds found outcome, .telling events outcome,
      { after with events := found.events }) :=
  .keeps silent (.of_eq untouched.rules) (.inl rfl)

/-- What a command that fails has done is not entered. -/
theorem silent_of_error (command : Command) (found : Engine σ) (failure : Failure) :
    ∀ deed ∈ command.deeds found (.error failure), deed.isEntered = false := by
  intro deed member
  cases command <;> cases failure <;> simp_all [Command.deeds, Deed.isEntered]

/-- What a command that finds no rule has done is not entered. -/
theorem silent_of_missing (command : Command) (found : Engine σ) :
    ∀ deed ∈ command.deeds found (.ok (.done false)), deed.isEntered = false := by
  have none : command.deeds found (.ok (.done false)) = [] := by
    cases command <;> rfl
  rw [none]
  exact fun _ member => absurd member List.not_mem_nil

/-- A rule that is taken out leaves the records of the others. -/
theorem keepsRecords_eraseIdx (rules : List Rule) (index : Nat) :
    KeepsRecords rules (rules.eraseIdx index) := by
  constructor
  case distinct =>
    intro distinct
    exact distinct.sublist ((List.eraseIdx_sublist rules index).map Rule.id)
  case record =>
    intro rule member
    exact ⟨rule, List.mem_of_mem_eraseIdx member, rfl, rfl, rfl⟩

/-- A rule that is changed keeps its record. -/
theorem keepsRecords_merge {rules : List Rule} {index : Nat} {rule : Rule}
    (there : rules[index]? = some rule) (change : RuleChange) :
    KeepsRecords rules (rules.set index (rule.merge change)) := by
  constructor
  case distinct =>
    intro distinct
    have named : (rules.map Rule.id)[index]? = some rule.id := by
      rw [List.getElem?_map, there]
      rfl
    have same : (rules.set index (rule.merge change)).map Rule.id = rules.map Rule.id := by
      obtain ⟨inside, here⟩ := List.getElem?_eq_some_iff.mp named
      have kept : (rule.merge change).id = (rules.map Rule.id)[index] := here.symm
      rw [List.map_set, kept, List.set_getElem_self]
    rw [Distinct, same]
    exact distinct
  case record =>
    intro other member
    rcases List.mem_or_eq_of_mem_set member with old | rfl
    · exact ⟨other, old, rfl, rfl, rfl⟩
    · exact ⟨rule, List.mem_of_getElem? there, rfl, rfl, rfl⟩

/-- A command that carries out no rule adds a rule, or keeps the records. -/
theorem of_quiet {command : Command} (quiet : command.carriesOut = false) (found : Engine σ) :
    Entry found (.asked command) (Call.start collaborators command found) := by
  cases command with
  | add new =>
    have accepted (id : String) (done : (found.add new).1 = .ok id) := insert_accepted done
    rcases outcome : found.add new with ⟨result, after⟩
    have possible := add_outcome new found
    rw [outcome] at possible accepted
    simp only [Call.start, run, answered, outcome]
    rcases possible with ⟨failure, rfl, untouched⟩ | ⟨rfl, committed⟩
    · exact of_untouched untouched (silent_of_error _ _ _)
    · exact .adds (accepted _ rfl).2 ⟨rfl, rfl⟩ committed.rules rfl
  | remove id =>
    rcases outcome : found.remove id with ⟨result, after⟩
    have possible := remove_outcome id found
    rw [outcome] at possible
    simp only [Call.start, run, answered, outcome]
    rcases possible with ⟨rfl, _, untouched⟩ | ⟨failure, rfl, untouched⟩ |
      ⟨rfl, index, position, committed⟩
    · exact of_untouched untouched (silent_of_missing _ _)
    · exact of_untouched untouched (silent_of_error _ _ _)
    · have deeds : (Command.remove id).deeds found (.ok (.done true)) =
          [.amended (.erase id), .saved (.ok ())] := rfl
      refine .keeps ?_ (committed.rules ▸ keepsRecords_eraseIdx found.rules index) (.inl rfl)
      simp [deeds, Except.map, Deed.isEntered]
  | update id change =>
    rcases outcome : found.update id change with ⟨result, after⟩
    have possible := update_outcome id change found
    rw [outcome] at possible
    simp only [Call.start, run, answered, outcome]
    rcases possible with ⟨rfl, _, untouched⟩ | ⟨failure, rfl, untouched⟩ |
      ⟨rfl, index, rule, position, there, _, _, committed⟩
    · exact of_untouched untouched (silent_of_missing _ _)
    · exact of_untouched untouched (silent_of_error _ _ _)
    · have deeds : (Command.update id change).deeds found (.ok (.done true)) =
          [.amended (.merge id change), .saved (.ok ())] := rfl
      refine .keeps ?_ (committed.rules ▸ keepsRecords_merge there change) (.inl rfl)
      simp [deeds, Except.map, Deed.isEntered]
  | get | rules | activeRules =>
    exact .keeps (fun _ member => absurd member List.not_mem_nil) (.of_eq rfl) (.inl rfl)
  | execute | trigger | schedule => cases quiet

/-- A section of a round keeps the records, or looks its rule up, or counts the execution that was
underway. -/
theorem of_step (detached : collaborators.Detached) {round : Round} {found : Engine σ}
    {advance : Advance σ} (step : round.Step collaborators found advance) :
    Entry found (.carrying round) advance := by
  have handed (message : Option Handoff) :
      ∀ deed ∈ message.toList.map Deed.handed, deed.isEntered = false := by
    cases message <;> simp [Deed.isEntered]
  have acted {action : Action} {started after : Engine σ} {outcome : Except Failure Unit}
      (performed : perform collaborators action round.occasion.context started = (outcome, after)) :
      after.rules = started.rules := by
    have aside := (actionSections_aside detached).perform action round.occasion.context started
    rw [performed] at aside
    obtain ⟨_, _, _, rfl⟩ := aside
    rfl
  cases step with
  | answers stage => exact .keeps (by simp) (.of_eq rfl) (.inl rfl)
  | passes stage =>
    rw [round.occasion.moment_engine found]
    exact .keeps (by simp [Deed.isEntered]) (.of_eq rfl) (.inl rfl)
  | @finds id _ rule stage _ version =>
    obtain rfl : rule.id = id := by
      simpa using List.find?_some (Option.filter_eq_some_iff.mp version).1
    rw [round.occasion.moment_engine found]
    exact .looks rfl rfl
  | skips stage | tells stage | unstored stage | reads stage =>
    exact .keeps (by simp [Deed.isEntered]) (.of_eq rfl) (.inl rfl)
  | begins stage =>
    refine .keeps (by simp [Deed.isEntered]) (.of_eq rfl) (.inr ?_)
    simp [Call.underway, stage, Stage.underway]
  | acts stage performed =>
    have same := acted performed
    refine .keeps (handed _) (.of_eq same) (.inr ?_)
    simp [Call.underway, stage, Stage.underway]
  | fails stage performed =>
    have same := acted performed
    exact .keeps (handed _) (.of_eq same) (.inl rfl)
  | misses stage gone =>
    refine .counts ?_ (Amendment.alterFirst_of_absent gone).symm rfl
    simp [Call.underway, stage, Stage.underway]
  | counts stage =>
    refine .counts ?_ rfl rfl
    simp [Call.underway, stage, Stage.underway]
  | @writes _ _ snapshot stage =>
    have others := save_changes_disk snapshot found
    exact .keeps (by simp [Deed.isEntered]) (.of_eq (by rw [others])) (.inl rfl)

end Entry

/-- What a section of a call does as far as the books are concerned, if collaborators are
detached. -/
theorem Call.entry (detached : collaborators.Detached) (call : Call) (found : Engine σ) :
    Entry found call (call.advance collaborators found) := by
  cases call with
  | carrying round => exact .of_step detached (round.step collaborators found)
  | telling | answered => exact .keeps (by simp) (.of_eq rfl) (.inl rfl)
  | asked command =>
    by_cases carries : command.carriesOut = true
    · cases command with
      | execute | trigger => exact .keeps (by simp) (.of_eq rfl) (.inl rfl)
      | schedule now => cases now <;> exact .keeps (by simp) (.of_eq rfl) (.inl rfl)
      | _ => cases carries
    · exact .of_quiet (by simpa using carries) found

/-- What had been counted for a registration to begin with. Only the first under an identifier can
have been there then. -/
def Registration.base (start : List Rule) (registration : Registration) : UInt64 :=
  if registration.number = 0 then
    ((start.find? (·.id == registration.id)).map Rule.executionCount).getD 0
  else 0

/-- What is known of an execution by the books: it was counted for a registration that is no
earlier than the one it had looked up, or there was no rule any more. If there was none and none
has been added since, there is none. -/
inductive Completion.Sound (rules : List Rule) (books : Books) : Completion → Prop where
  | counted {id : String} {looked counted : Nat} (order : looked ≤ counted)
      (within : counted ≤ (books.current id).number) :
      Sound rules books ⟨some ⟨id, looked⟩, some ⟨id, counted⟩⟩
  | gone {id : String} {looked : Nat} (within : looked ≤ (books.current id).number)
      (absent : looked = (books.current id).number → ∀ rule ∈ rules, rule.id ≠ id) :
      Sound rules books ⟨some ⟨id, looked⟩, none⟩

/-- What is known of an execution stays known, as long as no rule comes without being entered. -/
theorem Completion.Sound.mono {rules after : List Rule} {books later : Books}
    {completion : Completion} (sound : completion.Sound rules books)
    (grows : ∀ id, (books.current id).number ≤ (later.current id).number)
    (absent : ∀ id, (later.current id).number = (books.current id).number →
      (∀ rule ∈ rules, rule.id ≠ id) → ∀ rule ∈ after, rule.id ≠ id) :
    completion.Sound after later := by
  cases sound with
  | counted order within => exact .counted order (Nat.le_trans within (grows _))
  | @gone id looked within none =>
    refine .gone (Nat.le_trans within (grows id)) fun last => ?_
    have same : looked = (books.current id).number := by
      have grown := grows id
      omega
    exact absent id (last.symm.trans same) (none same)

namespace Books

/-- The record of a rule agrees with the books. -/
structure Tallies (start : List Rule) (books : Books) (rule : Rule) : Prop where
  count : rule.executionCount = (books.current rule.id).base start +
    UInt64.ofNat (books.counts (books.current rule.id))
  stamp : (books.current rule.id).number ≠ 0 →
    (rule.lastExecuted = none ↔ books.counts (books.current rule.id) = 0)

/-- The books of calls that go on: they know what each of them has looked up, and agree with the
records of all rules. -/
structure Balanced (start : List Rule) (books : Books) (traffic : Traffic σ) : Prop where
  distinct : Distinct traffic.engine.rules
  looking : ∀ caller call, traffic.calls[caller]? = some call → ∀ id ∈ call.underway,
    ∃ number ≤ (books.current id).number, books.looking caller = some ⟨id, number⟩
  sound : ∀ completion ∈ books.completions, completion.Sound traffic.engine.rules books
  tallied : ∀ rule ∈ traffic.engine.rules, books.Tallies start rule

variable {start : List Rule} {books : Books} {traffic : Traffic σ}

/-- A registration that is still to come was never counted for. -/
theorem counts_of_later (sound : ∀ completion ∈ books.completions,
      completion.Sound traffic.engine.rules books) {registration : Registration}
    (later : (books.current registration.id).number < registration.number) :
    books.counts registration = 0 := by
  refine List.countP_eq_zero.mpr fun completion member => ?_
  cases sound completion member with
  | counted order within =>
    simp only [Option.some.injEq, decide_eq_true_eq]
    rintro rfl
    exact absurd within (Nat.not_le_of_lt later)
  | gone => simp

/-- One more execution that is counted. -/
theorem counts_complete (books : Books) (caller : Nat) (counted : Option Registration)
    (registration : Registration) :
    (books.complete caller counted).counts registration =
      books.counts registration + if counted = some registration then 1 else 0 := by
  simp [counts, complete, List.countP_append, List.countP_singleton]

namespace Tallies

variable {later : Books} {rule : Rule}

/-- A record that is kept agrees with books that tell the same of its registration. -/
theorem of_same {old : Rule} (tallies : books.Tallies start old) (named : rule.id = old.id)
    (count : rule.executionCount = old.executionCount)
    (stamp : rule.lastExecuted = old.lastExecuted)
    (current : later.current old.id = books.current old.id)
    (counts : later.counts (books.current old.id) = books.counts (books.current old.id)) :
    later.Tallies start rule := by
  constructor
  · rw [named, count, current, counts]
    exact tallies.count
  · rw [named, stamp, current, counts]
    exact tallies.stamp

/-- The record of a rule that was added, and never ran, agrees with books that tell of no
execution. -/
theorem of_unused (added : (later.current rule.id).number ≠ 0)
    (none : later.counts (later.current rule.id) = 0)
    (unused : rule.executionCount = 0 ∧ rule.lastExecuted = .none) : later.Tallies start rule := by
  constructor
  · rw [none, Registration.base, if_neg added, unused.1]
    rfl
  · intro _
    exact iff_of_true unused.2 none

/-- The record of a rule that was executed agrees with books that tell of one execution more. -/
theorem executed (tallies : books.Tallies start rule) (time : Instant)
    (current : later.current rule.id = books.current rule.id)
    (once : later.counts (books.current rule.id) = books.counts (books.current rule.id) + 1) :
    later.Tallies start (rule.executed time) := by
  have named : (rule.executed time).id = rule.id := rfl
  constructor
  · have number : (rule.executed time).executionCount = rule.executionCount + 1 := rfl
    have more : UInt64.ofNat (books.counts (books.current rule.id) + 1) =
        UInt64.ofNat (books.counts (books.current rule.id)) + 1 := UInt64.ofNat_add _ _
    rw [named, current, once, number, tallies.count, more, UInt64.add_assoc]
  · intro _
    rw [named, current, once]
    exact iff_of_false nofun (Nat.succ_ne_zero _)

end Tallies

namespace Balanced

variable {caller : Nat} {call after : Call} {left : Engine σ}

/-- What others have looked up stays, and what a caller has looked up is known. -/
theorem looking_set {later : Books} (balanced : Balanced start books traffic)
    (grows : ∀ id, (books.current id).number ≤ (later.current id).number)
    (others : ∀ other, other ≠ caller → later.looking other = books.looking other)
    (own : ∀ id ∈ after.underway,
      ∃ number ≤ (later.current id).number, later.looking caller = some ⟨id, number⟩) :
    ∀ other call, (traffic.calls.set caller after)[other]? = some call → ∀ id ∈ call.underway,
      ∃ number ≤ (later.current id).number, later.looking other = some ⟨id, number⟩ := by
  intro other call there id underway
  by_cases same : other = caller
  · subst same
    obtain ⟨_, rfl⟩ : other < traffic.calls.length ∧ after = call := by
      simpa [List.getElem?_set] using there
    exact own id underway
  · rw [List.getElem?_set_ne (Ne.symm same)] at there
    obtain ⟨number, within, looked⟩ := balanced.looking other call there id underway
    exact ⟨number, Nat.le_trans within (grows id), (others other same).trans looked⟩

/-- Where records are kept, the books stay balanced. -/
theorem keeps (balanced : Balanced start books traffic)
    (there : traffic.calls[caller]? = some call)
    (records : KeepsRecords traffic.engine.rules left.rules)
    (underway : after.underway = [] ∨ after.underway = call.underway) :
    Balanced start books ⟨left, traffic.calls.set caller after⟩ := by
  constructor
  case distinct => exact records.distinct balanced.distinct
  case looking =>
    refine balanced.looking_set (fun _ => Nat.le_refl _) (fun _ _ => rfl) fun id member => ?_
    rcases underway with none | same
    · rw [none] at member
      cases member
    · exact balanced.looking caller call there id (same ▸ member)
  case sound =>
    intro completion member
    refine (balanced.sound completion member).mono (fun _ => Nat.le_refl _) ?_
    intro id _ absent rule present
    obtain ⟨old, before, named, _⟩ := records.record rule present
    exact named ▸ absent old before
  case tallied =>
    intro rule present
    obtain ⟨old, before, named, count, stamp⟩ := records.record rule present
    exact (balanced.tallied old before).of_same named.symm count.symm stamp.symm rfl rfl

/-- A rule that is added has a registration of its own, which nothing was counted for. -/
theorem adds (balanced : Balanced start books traffic) {rule : Rule}
    (new : ∀ other ∈ traffic.engine.rules, other.id ≠ rule.id)
    (unused : rule.executionCount = 0 ∧ rule.lastExecuted = none)
    (rules : left.rules = traffic.engine.rules ++ [rule]) (idle : after.underway = []) :
    Balanced start (books.add rule.id) ⟨left, traffic.calls.set caller after⟩ := by
  have grows (id : String) : (books.current id).number ≤ ((books.add rule.id).current id).number := by
    rw [current_add]
    exact Nat.le_add_right _ _
  constructor
  case distinct =>
    dsimp only
    rw [rules]
    exact balanced.distinct.append new
  case looking =>
    refine balanced.looking_set grows (fun _ _ => rfl) fun id member => ?_
    rw [idle] at member
    cases member
  case sound =>
    intro completion member
    refine (balanced.sound completion member).mono grows ?_
    intro id same absent other present
    rw [rules] at present
    rcases List.mem_append.mp present with old | last
    · exact absent other old
    · obtain rfl := List.mem_singleton.mp last
      rintro rfl
      rw [current_add, if_pos rfl] at same
      exact absurd same (Nat.succ_ne_self _)
  case tallied =>
    intro other present
    dsimp only at present
    rw [rules] at present
    rcases List.mem_append.mp present with old | last
    · have same : (books.add rule.id).current other.id = books.current other.id := by
        rw [current_add, if_neg (new other old).symm]
        rfl
      exact (balanced.tallied other old).of_same rfl rfl rfl same rfl
    · obtain rfl := List.mem_singleton.mp last
      have fresh : (books.add other.id).current other.id =
          ⟨other.id, (books.current other.id).number + 1⟩ := by
        rw [current_add, if_pos rfl]
      have none : (books.add other.id).counts ((books.add other.id).current other.id) = 0 := by
        rw [fresh]
        exact counts_of_later balanced.sound (Nat.lt_succ_self _)
      have added : ((books.add other.id).current other.id).number ≠ 0 := by
        rw [fresh]
        exact Nat.succ_ne_zero _
      exact .of_unused added none unused

/-- A caller that looks up a rule is known to have looked up the latest registration. -/
theorem looks (balanced : Balanced start books traffic) {id : String}
    (rules : left.rules = traffic.engine.rules) (underway : after.underway = [id]) :
    Balanced start (books.look caller id) ⟨left, traffic.calls.set caller after⟩ := by
  constructor
  case distinct =>
    dsimp only
    rw [rules]
    exact balanced.distinct
  case looking =>
    refine balanced.looking_set (fun _ => Nat.le_refl _) (fun other apart => if_neg apart) ?_
    intro other member
    rw [underway] at member
    obtain rfl := List.mem_singleton.mp member
    exact ⟨_, Nat.le_refl _, if_pos rfl⟩
  case sound =>
    dsimp only
    rw [rules]
    exact fun completion member =>
      (balanced.sound completion member).mono (fun _ => Nat.le_refl _) fun _ _ absent => absent
  case tallied =>
    dsimp only
    rw [rules]
    exact fun rule present => (balanced.tallied rule present).of_same rfl rfl rfl rfl rfl

/-- An execution that was underway is counted for the latest registration under its identifier,
if that one is still there. -/
theorem completes (balanced : Balanced start books traffic)
    (there : traffic.calls[caller]? = some call) {id : String} {time : Instant}
    (underway : call.underway = [id])
    (rules : left.rules = (Amendment.count id time).apply traffic.engine.rules)
    (idle : after.underway = []) :
    Balanced start
      (books.complete caller ((traffic.engine.find? id).map fun _ => books.current id))
      ⟨left, traffic.calls.set caller after⟩ := by
  have adjusted : left.rules = adjust id (·.executed time) traffic.engine.rules :=
    rules.trans (Amendment.alterFirst_eq_adjust balanced.distinct)
  constructor
  case distinct =>
    dsimp only
    rw [adjusted]
    exact balanced.distinct.adjust id fun _ => rfl
  case looking =>
    refine balanced.looking_set (fun _ => Nat.le_refl _) (fun _ _ => rfl) fun id member => ?_
    rw [idle] at member
    cases member
  case sound =>
    intro completion member
    rcases List.mem_append.mp member with earlier | last
    · refine (balanced.sound completion earlier).mono (fun _ => Nat.le_refl _) ?_
      intro other _ absent
      dsimp only
      rw [adjusted]
      exact forall_mem_adjust absent fun rule present _ => absent rule present
    · obtain rfl := List.mem_singleton.mp last
      obtain ⟨number, within, looked⟩ := balanced.looking caller call there id (by simp [underway])
      rw [looked]
      cases found : traffic.engine.find? id with
      | none =>
        refine .gone within fun _ => ?_
        dsimp only
        rw [adjusted]
        have absent := Engine.ne_of_find?_none found
        exact forall_mem_adjust absent fun rule present _ => absent rule present
      | some rule => exact .counted within (Nat.le_refl _)
  case tallied =>
    intro rule present
    dsimp only at present
    rw [adjusted] at present
    obtain ⟨old, before, rfl⟩ := List.mem_map.mp present
    have tallied := balanced.tallied old before
    by_cases named : old.id = id
    · subst named
      have found := Engine.find?_of_mem balanced.distinct before
      rw [if_pos rfl]
      refine tallied.executed time rfl ?_
      rw [counts_complete, if_pos]
      rw [found, Option.map_some]
    · rw [if_neg named]
      refine tallied.of_same rfl rfl rfl rfl ?_
      rw [counts_complete, if_neg, Nat.add_zero]
      intro same
      obtain ⟨_, _, latest⟩ := Option.map_eq_some_iff.mp same
      exact named (congrArg Registration.id latest).symm

/-- Every section keeps the books balanced. -/
theorem enters (balanced : Balanced start books traffic)
    (there : traffic.calls[caller]? = some call) {deeds : List Deed}
    (entry : Entry traffic.engine call (deeds, after, left)) :
    Balanced start (books.enter ⟨caller, traffic.engine, deeds, left⟩)
      ⟨left, traffic.calls.set caller after⟩ := by
  cases entry with
  | keeps silent records underway =>
    rw [enter_of_silent books silent]
    exact balanced.keeps there records underway
  | adds new unused rules underway => exact balanced.adds new unused rules underway
  | looks rules underway => exact balanced.looks rules underway
  | counts underway rules idle => exact balanced.completes there underway rules idle

end Balanced

/-- An execution that had looked up the registration of a rule that is there was counted for it. -/
theorem Balanced.counted_of_looked (balanced : Balanced start books traffic) {rule : Rule}
    (present : rule ∈ traffic.engine.rules) {completion : Completion}
    (member : completion ∈ books.completions)
    (looked : completion.looked = some (books.current rule.id)) :
    completion.counted = some (books.current rule.id) := by
  cases balanced.sound completion member with
  | counted order within =>
    obtain ⟨rfl, rfl⟩ := Registration.mk.inj (Option.some.inj looked)
    obtain rfl := Nat.le_antisymm order within
    rfl
  | gone _ absent =>
    obtain ⟨rfl, rfl⟩ := Registration.mk.inj (Option.some.inj looked)
    exact absurd rfl (absent rfl rule present)

/-- For a rule that is there, the executions that were counted are those that had looked up its
registration and those that had looked up another. -/
theorem Balanced.counts_eq (balanced : Balanced start books traffic) {rule : Rule}
    (present : rule ∈ traffic.engine.rules) :
    books.counts (books.current rule.id) =
      books.runs (books.current rule.id) + books.inherits (books.current rule.id) := by
  rw [counts, List.countP_eq_countP_filter_add books.completions _
    (·.looked = some (books.current rule.id)), List.countP_filter, List.countP_filter]
  congr 1
  · refine List.countP_congr fun completion member => ?_
    have own := balanced.counted_of_looked present member
    simpa using own
  · refine List.countP_congr fun completion _ => ?_
    simp

/-- A section enters one execution at most. -/
theorem length_enter (books : Books) (taken : Section σ) :
    (books.enter taken).completions.length ≤ books.completions.length + 1 := by
  unfold enter
  split
  · exact Nat.le_succ _
  · exact Nat.le_succ _
  · simp [complete]
  · exact Nat.le_succ _

/-- There are no more executions than sections. -/
theorem length_enters (sections : List (Section σ)) (books : Books) :
    (sections.foldl enter books).completions.length ≤
      books.completions.length + sections.length := by
  induction sections generalizing books with
  | nil => exact Nat.le_refl _
  | cons taken rest inductionHypothesis =>
    have entered := length_enter books taken
    have others := inductionHypothesis (books.enter taken)
    rw [List.foldl_cons, List.length_cons]
    omega

/-- The executions counted for a registration are among all. -/
theorem counts_le (books : Books) (registration : Registration) :
    books.counts registration ≤ books.completions.length := List.countP_le_length

end Books

namespace Traffic

open Books

/-- There are no more sections than turns of the callers. -/
theorem length_follow (callers : List Nat) (traffic : Traffic σ) :
    (traffic.follow collaborators callers).1.length ≤ callers.length := by
  induction callers generalizing traffic with
  | nil => exact Nat.le_refl _
  | cons caller rest inductionHypothesis =>
    unfold follow
    split
    · exact Nat.le_succ_of_le (inductionHypothesis _)
    · exact Nat.succ_le_succ (inductionHypothesis _)

/-- The books of calls that begin together stay balanced while they go on in any order. -/
theorem balanced_follow (detached : collaborators.Detached) {traffic : Traffic σ}
    (asked : ∀ call ∈ traffic.calls, ∃ command, call = .asked command)
    (distinct : Distinct traffic.engine.rules) (callers : List Nat) :
    Balanced traffic.engine.rules (Books.of (traffic.follow collaborators callers).1)
      (traffic.follow collaborators callers).2 := by
  refine follow_induction (fun past reached => Balanced traffic.engine.rules (.of past) reached)
    ?_ callers traffic ⟨distinct, ?_, nofun, ?_⟩
  · intro past caller reached taken after balanced stepped
    obtain ⟨call, there, _, rfl, rfl⟩ := step_eq_some stepped
    rw [Books.of, List.foldl_concat]
    exact balanced.enters there (call.entry detached reached.engine)
  · intro caller call there id underway
    obtain ⟨command, rfl⟩ := asked call (List.mem_of_getElem? there)
    cases underway
  · intro rule member
    have found : traffic.engine.rules.find? (·.id == rule.id) = some rule :=
      Engine.find?_of_mem distinct member
    have base : Registration.base traffic.engine.rules ⟨rule.id, 0⟩ = rule.executionCount := by
      rw [Registration.base, if_pos rfl, found]
      rfl
    refine ⟨?_, fun later => absurd rfl later⟩
    exact (UInt64.add_zero _).symm.trans (congrArg (· + 0) base.symm)

/-- How often a rule counts itself as executed depends on two things only, in whatever order calls
go on. It counts every execution that has looked up this very registration of it and carried out
all its actions, and every one that has looked up an earlier registration under its identifier and
was over only after this one had been made. So it counts its own executions and no others exactly
if it has inherited none, and a rule that was added and has never run has no record exactly then. -/
theorem counts_runs_and_inherits (detached : collaborators.Detached) (traffic : Traffic σ)
    (asked : ∀ call ∈ traffic.calls, ∃ command, call = .asked command)
    (distinct : Distinct traffic.engine.rules) (callers : List Nat) :
    let followed := traffic.follow collaborators callers
    let books := Books.of followed.1
    (∀ rule ∈ followed.2.engine.rules,
      let registration := books.current rule.id
      let before := registration.base traffic.engine.rules
      rule.executionCount = before +
        UInt64.ofNat (books.runs registration + books.inherits registration) ∧
      (callers.length < UInt64.size →
        (rule.executionCount = before + UInt64.ofNat (books.runs registration) ↔
          books.inherits registration = 0)) ∧
      (registration.number ≠ 0 → (rule.lastExecuted = none ↔
        books.runs registration = 0 ∧ books.inherits registration = 0))) ∧
    (∀ completion ∈ books.completions, ∀ counted, completion.counted = some counted →
      completion.looked ≠ some counted → ∃ earlier, completion.looked = some earlier ∧
        earlier.id = counted.id ∧ earlier.number < counted.number) := by
  intro followed books
  have balanced := balanced_follow detached asked distinct callers
  refine ⟨fun rule present => ?_, fun completion member counted latest other => ?_⟩
  · intro registration before
    have tallied := balanced.tallied rule present
    have parts : books.counts registration = books.runs registration + books.inherits registration :=
      balanced.counts_eq present
    have count : rule.executionCount = before +
        UInt64.ofNat (books.runs registration + books.inherits registration) :=
      tallied.count.trans (congrArg (before + UInt64.ofNat ·) parts)
    refine ⟨count, fun few => ?_, fun later => ?_⟩
    · have bound : books.runs registration + books.inherits registration < UInt64.size := by
        rw [← parts]
        have among := books.counts_le registration
        have entered : books.completions.length ≤ 0 + followed.1.length :=
          length_enters followed.1 {}
        have sections : followed.1.length ≤ callers.length := length_follow callers traffic
        omega
      rw [count, UInt64.add_right_inj]
      constructor
      · intro same
        have numbers := congrArg UInt64.toNat same
        rw [UInt64.toNat_ofNat_of_lt' bound, UInt64.toNat_ofNat_of_lt' (by omega)] at numbers
        omega
      · intro none
        rw [none, Nat.add_zero]
    · have stamp : rule.lastExecuted = none ↔ books.counts registration = 0 := tallied.stamp later
      rw [stamp, parts, Nat.add_eq_zero_iff]
  · cases balanced.sound completion member with
    | @counted id earlier _ order within =>
      obtain rfl := Option.some.inj latest
      refine ⟨_, rfl, rfl, Nat.lt_of_le_of_ne order ?_⟩
      rintro rfl
      exact other rfl
    | gone => cases latest

/-- The survey is carried out twice, while it is removed and registered anew. -/
def renewing : Traffic (List Handoff) where
  engine := Engine.completing
  calls := [.asked (.execute "survey" .null), .asked (.remove "survey"),
    .asked (.add ⟨some "survey", "Survey", "", .event "course_completed", [], [], true⟩),
    .asked (.execute "survey" .null)]

/-- The first execution is over before the survey is removed, so the new one counts the second
only, which is its own. -/
theorem renewal_counts_its_own :
    let callers := List.replicate 8 0 ++ [1, 1, 2, 2] ++ List.replicate 8 3
    let followed := renewing.follow .logging callers
    let books := Books.of followed.1
    books.completions = [⟨some ⟨"survey", 0⟩, some ⟨"survey", 0⟩⟩,
        ⟨some ⟨"survey", 1⟩, some ⟨"survey", 1⟩⟩] ∧
      ∀ rule ∈ followed.2.engine.rules, rule.id = "survey" → rule.executionCount = 1 := by
  intro callers followed books
  have asked : ∀ call ∈ renewing.calls, ∃ command, call = .asked command := by
    simp [renewing]
  have distinct : Distinct renewing.engine.rules := by
    unfold Distinct
    decide +kernel
  have latest : books.current "survey" = ⟨"survey", 1⟩ := by decide +kernel
  have runs : books.runs ⟨"survey", 1⟩ = 1 := by decide +kernel
  have inherits : books.inherits ⟨"survey", 1⟩ = 0 := by decide +kernel
  obtain ⟨rules, _⟩ := counts_runs_and_inherits Collaborators.logging_detached renewing asked
    distinct callers
  refine ⟨by decide +kernel, fun rule present named => ?_⟩
  have own := (rules rule present).2.1 (by decide)
  rw [named, latest] at own
  rw [own.mpr inherits, runs]
  rfl

/-- The survey is removed and registered anew while it is carried out. The new one was never
looked up, and has the execution on its record. -/
theorem renewal_inherits_execution :
    let callers := List.replicate 4 0 ++ [1, 1, 2, 2] ++ List.replicate 4 0
    let followed := renewing.follow .logging callers
    let books := Books.of followed.1
    (followed.2.engine.rules.map fun rule =>
        (books.current rule.id, rule.executionCount, rule.lastExecuted.isSome)) =
      [(⟨"transcript", 0⟩, 0, false), (⟨"certificate", 0⟩, 0, false), (⟨"survey", 1⟩, 1, true)] ∧
    books.runs ⟨"survey", 1⟩ = 0 := by
  exact ⟨by decide +kernel, by decide +kernel⟩

end Traffic
end CampusRules
