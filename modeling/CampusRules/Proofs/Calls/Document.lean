import CampusRules.Proofs.Calls.Account
import CampusRules.Proofs.Engine.Dispatch

/-!
# The registry and its document while calls go on

No change gets lost: at any time the registry is what the amendments of all calls make of it, in
the order of the sections that made them.

The document may be behind, for an execution is counted in memory first. But the call that has
counted it still owes a save, and while a call writes what it has read, the lock keeps every
other call from reading or committing. So one of three things is true at any time: some call has
yet to read the registry, or the one that writes has read it as it is now, or the document is up
to date unless the last write has failed. Once no call owes anything, only the last is left.
-/

namespace CampusRules

variable {σ : Type} {collaborators : Collaborators σ}

/-- A call holds the lock exactly while it is about to write. -/
theorem Call.holdsLock_iff (call : Call) :
    call.holdsLock = true ↔ ∃ snapshot, call.debt = .write snapshot := by
  cases call with
  | carrying round =>
    obtain ⟨_, _, stage, _, _⟩ := round
    cases stage <;> simp [Call.holdsLock, Call.debt, Stage.debt]
  | _ => simp [Call.holdsLock, Call.debt]

namespace Traffic

/-- The registry at any time is what all amendments so far make of it, in their order. -/
theorem rules_follow (detached : collaborators.Detached) (callers : List Nat)
    (traffic : Traffic σ) :
    (traffic.follow collaborators callers).2.engine.rules =
      (Deed.amendments (Section.allDeeds (traffic.follow collaborators callers).1)).foldl
        Amendment.apply traffic.engine.rules := by
  refine follow_induction (fun past reached => reached.engine.rules =
    (Deed.amendments (Section.allDeeds past)).foldl Amendment.apply traffic.engine.rules)
    ?_ callers traffic rfl
  intro past caller reached taken after rules stepped
  obtain ⟨call, _, _, rfl, rfl⟩ := step_eq_some stepped
  rw [Section.allDeeds_concat, Deed.amendments_append, List.foldl_append, ← rules]
  exact (call.advance_effect detached reached.engine).rules

/-- What the call of a caller owes to the document. -/
def Owes (traffic : Traffic σ) (caller : Nat) (debt : Debt) : Prop :=
  traffic.calls[caller]?.map Call.debt = some debt

/-- How the document at a place stands while calls go on, by the outcome of the last write. -/
structure UpToDate (location : Location) (last : Option (Except Failure Unit))
    (traffic : Traffic σ) : Prop where
  stored : traffic.engine.storage = some location
  alone : ∀ first second snapshot rules, traffic.Owes first (.write snapshot) →
    traffic.Owes second (.write rules) → first = second
  document : (∃ caller, traffic.Owes caller .read) ∨
    (∃ caller, traffic.Owes caller (.write traffic.engine.rules)) ∨
    (∀ caller snapshot, ¬traffic.Owes caller (.write snapshot)) ∧
      ((∀ failure, last ≠ some (.error failure)) → traffic.engine.Holds traffic.engine.rules)

/-- While the lock is free, no call is about to write. -/
theorem not_owes_of_free {traffic : Traffic σ} (free : traffic.calls.any Call.holdsLock = false)
    (caller : Nat) (snapshot : List Rule) : ¬traffic.Owes caller (.write snapshot) := by
  intro owes
  obtain ⟨call, there, writes⟩ := Option.map_eq_some_iff.mp owes
  have held : call.holdsLock = true := call.holdsLock_iff.mpr ⟨snapshot, writes⟩
  exact List.any_eq_false.mp free call (List.mem_of_getElem? there) held

section

variable {traffic : Traffic σ} {caller : Nat} {call after : Call} {left : Engine σ}
  (there : traffic.calls[caller]? = some call)

/-- What others owe stays. -/
theorem owes_set_ne {other : Nat} (different : other ≠ caller) (debt : Debt) :
    Owes ⟨left, traffic.calls.set caller after⟩ other debt ↔ traffic.Owes other debt := by
  unfold Owes
  rw [List.getElem?_set_ne different.symm]

include there

/-- What a call owes after it has gone on. -/
theorem owes_set_self (debt : Debt) :
    Owes ⟨left, traffic.calls.set caller after⟩ caller debt ↔ after.debt = debt := by
  unfold Owes
  rw [List.getElem?_set_self (List.getElem?_eq_some_iff.mp there).1]
  simp

/-- What a call owed before it went on. -/
theorem owes_self (debt : Debt) : traffic.Owes caller debt ↔ call.debt = debt := by
  unfold Owes
  rw [there]
  simp

/-- A debt that a call neither had nor has is owed by the same callers as before. -/
theorem owes_set_iff {debt : Debt} (before : call.debt ≠ debt) (owed : after.debt ≠ debt)
    (other : Nat) :
    Owes ⟨left, traffic.calls.set caller after⟩ other debt ↔ traffic.Owes other debt := by
  by_cases same : other = caller
  · subst same
    rw [owes_set_self there, owes_self there]
    exact ⟨fun owes => (owed owes).elim, fun owes => (before owes).elim⟩
  · exact owes_set_ne same debt

end

namespace UpToDate

variable {location : Location} {last : Option (Except Failure Unit)} {traffic : Traffic σ}
  {caller : Nat} {call after : Call} {left : Engine σ}

/-- Nothing changes about the document when a call goes on that owes nothing, and the registry
stays as it is. -/
theorem of_unchanged (upToDate : UpToDate location last traffic)
    (there : traffic.calls[caller]? = some call) (before : call.debt = .none)
    (owed : after.debt = .none) (rules : left.rules = traffic.engine.rules)
    (storage : left.storage = traffic.engine.storage) {next : Option (Except Failure Unit)}
    (document : ((∀ failure, last ≠ some (.error failure)) →
      traffic.engine.Holds traffic.engine.rules) →
        (∀ failure, next ≠ some (.error failure)) → left.Holds traffic.engine.rules) :
    UpToDate location next ⟨left, traffic.calls.set caller after⟩ := by
  have reads (other : Nat) :
      Owes ⟨left, traffic.calls.set caller after⟩ other .read ↔ traffic.Owes other .read :=
    owes_set_iff there (by simp [before]) (by simp [owed]) other
  have writes (other : Nat) (snapshot : List Rule) :
      Owes ⟨left, traffic.calls.set caller after⟩ other (.write snapshot) ↔
        traffic.Owes other (.write snapshot) :=
    owes_set_iff there (by simp [before]) (by simp [owed]) other
  refine ⟨storage.trans upToDate.stored, ?_, ?_⟩
  · intro first second snapshot other
    rw [writes, writes]
    exact upToDate.alone first second snapshot other
  · simp only [reads, writes, rules]
    exact upToDate.document.imp_right fun other => other.imp_right fun ⟨quiet, whole⟩ =>
      ⟨quiet, document whole⟩

/-- A change of the registry is made while nobody writes, and leaves a document that holds it. -/
theorem of_commit (upToDate : UpToDate location last traffic)
    (there : traffic.calls[caller]? = some call)
    (free : traffic.calls.any Call.holdsLock = false)
    (before : call.debt = .none) (owed : after.debt = .none)
    (storage : left.storage = traffic.engine.storage) (document : left.Holds left.rules)
    (next : Option (Except Failure Unit)) :
    UpToDate location next ⟨left, traffic.calls.set caller after⟩ := by
  have quiet (writer : Nat) (snapshot : List Rule) :
      ¬Owes ⟨left, traffic.calls.set caller after⟩ writer (.write snapshot) := by
    rw [owes_set_iff there (by simp [before]) (by simp [owed])]
    exact not_owes_of_free free writer snapshot
  refine ⟨storage.trans upToDate.stored, ?_, .inr (.inr ⟨quiet, fun _ => document⟩)⟩
  intro first second snapshot other writes
  exact (quiet first snapshot writes).elim

/-- Once an execution is counted, the call that has counted it owes that the registry is read. -/
theorem of_count (upToDate : UpToDate location last traffic)
    (there : traffic.calls[caller]? = some call) (before : call.debt = .none)
    (owed : after.debt = .read) (storage : left.storage = traffic.engine.storage)
    (next : Option (Except Failure Unit)) :
    UpToDate location next ⟨left, traffic.calls.set caller after⟩ := by
  have writes (other : Nat) (snapshot : List Rule) :
      Owes ⟨left, traffic.calls.set caller after⟩ other (.write snapshot) ↔
        traffic.Owes other (.write snapshot) :=
    owes_set_iff there (by simp [before]) (by simp [owed]) other
  refine ⟨storage.trans upToDate.stored, ?_, .inl ⟨caller, (owes_set_self there _).mpr owed⟩⟩
  intro first second snapshot other
  rw [writes, writes]
  exact upToDate.alone first second snapshot other

/-- The registry is read while nobody writes, and the one that has read it writes it as it is. -/
theorem of_read (upToDate : UpToDate location last traffic)
    (there : traffic.calls[caller]? = some call)
    (free : traffic.calls.any Call.holdsLock = false)
    (owed : after.debt = .write traffic.engine.rules) (next : Option (Except Failure Unit)) :
    UpToDate location next ⟨traffic.engine, traffic.calls.set caller after⟩ := by
  have alone (writer : Nat) (snapshot : List Rule)
      (writes : Owes ⟨traffic.engine, traffic.calls.set caller after⟩ writer
        (.write snapshot)) : writer = caller := by
    by_contra different
    exact not_owes_of_free free writer snapshot ((owes_set_ne different _).mp writes)
  refine ⟨upToDate.stored, ?_, .inr (.inl ⟨caller, (owes_set_self there _).mpr owed⟩)⟩
  intro first second snapshot other writes others
  rw [alone first snapshot writes, alone second other others]

/-- Once a call has written what it has read, nobody writes. The document is up to date then,
unless there is somebody who has yet to read the registry, or the write has failed. -/
theorem of_write (upToDate : UpToDate location last traffic)
    (there : traffic.calls[caller]? = some call) {snapshot : List Rule}
    {outcome : Except Failure Unit} (before : call.debt = .write snapshot)
    (owed : after.debt = .none) (rules : left.rules = traffic.engine.rules)
    (storage : left.storage = traffic.engine.storage)
    (document : outcome = .ok () → left.Holds snapshot) :
    UpToDate location (some outcome) ⟨left, traffic.calls.set caller after⟩ := by
  have owes : traffic.Owes caller (.write snapshot) := (owes_self there _).mpr before
  have quiet (writer : Nat) (other : List Rule) :
      ¬Owes ⟨left, traffic.calls.set caller after⟩ writer (.write other) := by
    intro writes
    by_cases same : writer = caller
    · subst same
      have still := (owes_set_self there _).mp writes
      rw [owed] at still
      cases still
    · exact same (upToDate.alone writer caller other snapshot
        ((owes_set_ne same _).mp writes) owes)
  refine ⟨storage.trans upToDate.stored, ?_, ?_⟩
  · intro first second snapshot other writes
    exact (quiet first snapshot writes).elim
  · rcases upToDate.document with ⟨reader, reads⟩ | ⟨writer, writes⟩ | ⟨none, _⟩
    · exact .inl ⟨reader, (owes_set_iff there (by simp [before]) (by simp [owed]) _).mpr reads⟩
    · refine .inr (.inr ⟨quiet, fun clean => ?_⟩)
      -- The one that wrote is the one that had read the registry as it is now.
      obtain rfl := upToDate.alone writer caller _ snapshot writes owes
      have read := (owes_self there _).mp writes
      rw [before] at read
      cases read
      have done : outcome = .ok () := by
        cases outcome with
        | ok => rfl
        | error failure => exact (clean failure rfl).elim
      rw [rules]
      exact document done
    · exact (none caller snapshot owes).elim

/-- How the document stands is kept up by every section, whatever it does. -/
theorem effect (upToDate : UpToDate location last traffic)
    (there : traffic.calls[caller]? = some call)
    (free : call.needsLock traffic.engine = true → traffic.calls.any Call.holdsLock = false)
    {deeds : List Deed} (effect : Effect traffic.engine call (deeds, after, left)) :
    UpToDate location ((Deed.writes deeds).getLast?.or last)
      ⟨left, traffic.calls.set caller after⟩ := by
  cases effect with
  | passes before owed _ silent rules storage document =>
    apply upToDate.of_unchanged there before owed rules storage
    intro whole clean
    rw [silent] at clean
    exact document.holds storage (whole clean)
  | fails before owed rules storage document =>
    apply upToDate.of_unchanged there before owed rules storage
    intro _ clean
    exact (clean _ rfl).elim
  | commits before owed locked rules storage document =>
    exact upToDate.of_commit there (free locked) before owed storage document _
  | counts before owed rules storage document =>
    rcases owed with owed | ⟨owed, same⟩
    · exact upToDate.of_count there before owed storage _
    · apply upToDate.of_unchanged there before owed same storage
      intro whole clean
      exact document.holds storage (whole clean)
  | reads before owed =>
    rcases owed with ⟨owed, locked⟩ | ⟨_, unstored⟩
    · exact upToDate.of_read there (free locked) owed _
    · rw [upToDate.stored] at unstored
      cases unstored
  | writes before owed rules storage document =>
    exact upToDate.of_write there before owed rules storage document

end UpToDate

/-- How the document stands is kept up while calls go on in any order. -/
theorem upToDate_follow (detached : collaborators.Detached) (callers : List Nat)
    (traffic : Traffic σ) {location : Location} (upToDate : UpToDate location none traffic) :
    let followed := traffic.follow collaborators callers
    UpToDate location (Deed.writes (Section.allDeeds followed.1)).getLast? followed.2 := by
  refine follow_induction (fun past reached =>
    UpToDate location (Deed.writes (Section.allDeeds past)).getLast? reached)
    ?_ callers traffic upToDate
  intro past caller reached taken after kept stepped
  obtain ⟨call, there, free, rfl, rfl⟩ := step_eq_some stepped
  rw [Section.allDeeds_concat, Deed.writes_append, List.getLast?_append]
  exact kept.effect there free (call.advance_effect detached reached.engine)

/-- Nothing that calls do gets lost, in whatever order their sections are carried out. At any
time the registry is what all amendments make of it in the order of their sections. A call that
is answered has made the amendments that its answer tells of, and no others. And if the document
held the registry to begin with, it holds it again whenever no call owes anything to the
document, unless the last write has failed. -/
theorem nothing_lost (detached : collaborators.Detached) (traffic : Traffic σ)
    (callers : List Nat) :
    let followed := traffic.follow collaborators callers
    followed.2.engine.rules = (Deed.amendments (Section.allDeeds followed.1)).foldl
      Amendment.apply traffic.engine.rules ∧
    (∀ (caller : Nat) (command : Command) (outcome : Except Failure Answer),
      traffic.calls[caller]? = some (.asked command) →
      followed.2.calls[caller]? = some (.answered outcome) →
        command.Accounts outcome
          (Deed.amendments (Section.allDeeds (Section.of caller followed.1)))) ∧
    (∀ location, traffic.engine.storage = some location →
      traffic.engine.disk.read? location =
        some (Document.text traffic.engine.rules).toUTF8 →
      (∀ call ∈ traffic.calls, call.debt = .none) →
      (∀ call ∈ followed.2.calls, call.debt = .none) →
      (∀ failure, (Deed.writes (Section.allDeeds followed.1)).getLast? ≠ some (.error failure)) →
        followed.2.engine.disk.read? location =
          some (Document.text followed.2.engine.rules).toUTF8) := by
  intro followed
  refine ⟨rules_follow detached callers traffic, ?_, ?_⟩
  · intro caller command outcome asked answered
    obtain ⟨last, reached, course⟩ := course_follow collaborators callers traffic asked
    obtain rfl : Call.answered outcome = last := Option.some.inj (answered.symm.trans reached)
    exact course.accounts
  · intro location stored held settled done clean
    have unowed {traffic : Traffic σ} (settled : ∀ call ∈ traffic.calls, call.debt = .none)
        (caller : Nat) {debt : Debt} (owes : traffic.Owes caller debt) : debt = .none := by
      obtain ⟨call, there, rfl⟩ := Option.map_eq_some_iff.mp owes
      exact settled call (List.mem_of_getElem? there)
    have upToDate : UpToDate location none traffic := by
      refine ⟨stored, ?_, .inr (.inr ⟨?_, fun _ => ?_⟩)⟩
      · intro first second snapshot other writes
        cases unowed settled first writes
      · intro caller snapshot writes
        cases unowed settled caller writes
      · intro other same
        obtain rfl : location = other := Option.some.inj (stored.symm.trans same)
        exact held
    have kept := upToDate_follow detached callers traffic upToDate
    rcases kept.document with ⟨reader, reads⟩ | ⟨writer, writes⟩ | ⟨_, whole⟩
    · cases unowed done reader reads
    · cases unowed done writer writes
    · exact whole clean location kept.stored

/-- Two rules are carried out and one of them is removed, with the document on a shelf. -/
def shelving : Traffic Unit where
  engine :=
    { rules := Engine.completing.rules
      storage := some ["rules.json"]
      disk := { entries :=
        [(["rules.json"], .file (Document.text Engine.completing.rules).toUTF8)] }
      supply := Engine.completing.supply
      outside := () }
  calls := [.asked (.execute "transcript" .null), .asked (.execute "survey" .null),
    .asked (.remove "transcript")]

/-- The second execution is counted after the first one has read the registry, so what the first
writes is behind already. The removal has to wait for that write, and the second execution
writes last. Then the document has it all. -/
theorem shelving_loses_nothing :
    let callers := List.replicate 6 0 ++ List.replicate 6 1 ++ [2] ++ List.replicate 3 0 ++
      [2, 2] ++ List.replicate 4 1
    let followed := shelving.follow .logging callers
    (followed.2.engine.rules.map fun rule => (rule.id, rule.executionCount)) =
      [("certificate", 0), ("survey", 1)] ∧
    Deed.writes (Section.allDeeds followed.1) = [.ok (), .ok (), .ok ()] ∧
    followed.2.engine.disk.read? ["rules.json"] =
      some (Document.text followed.2.engine.rules).toUTF8 := by
  intro callers followed
  have written : Deed.writes (Section.allDeeds followed.1) = [.ok (), .ok (), .ok ()] := by
    decide +kernel
  refine ⟨by decide +kernel, written, ?_⟩
  apply (nothing_lost Collaborators.logging_detached shelving callers).2.2 ["rules.json"] rfl
  · rfl
  · decide +kernel
  · decide +kernel
  · rw [written]
    intro failure failed
    cases failed

end Traffic
end CampusRules
