import CampusRules.Proofs.Calls.Serial
import CampusRules.Proofs.Engine.Schedule

/-!
# Passes that overlap

A pass on a schedule selects the rules that are due once, and counts each execution at its end.
A pass that selects in between finds a rule as it was before that count. Where that makes no
difference to whether the rule is due, the two passes come to the same as one after the other.
Where it does, they do not: a daily rule that neither pass has counted yet when the other one
selects is carried out by both, on one and the same day.

So the passes agree with running one after the other exactly as far as late counts do not matter
for being due.
-/

namespace CampusRules

open Behaviour Registry

/-- The sections of two callers, one after the other, are all sections if nobody else calls. -/
theorem Section.of_append_perm {σ : Type} {sections : List (Section σ)} {early late : Nat}
    (apart : early ≠ late)
    (callers : ∀ taken ∈ sections, taken.caller = early ∨ taken.caller = late) :
    (Section.of early sections ++ Section.of late sections).Perm sections := by
  have others : Section.of late sections =
      sections.filter (fun taken => !(taken.caller == early)) := by
    apply List.filter_congr
    intro taken member
    rcases callers taken member with same | same
    · simp [same, apart]
    · simp [same, apart.symm]
  rw [others]
  exact List.filter_append_perm _ _

/-- What deeds come to that are made in another order. -/
theorem Section.allDeeds_perm {σ : Type} {first second : List (Section σ)}
    (perm : first.Perm second) : (Section.allDeeds first).Perm (Section.allDeeds second) :=
  perm.flatMap_right Section.deeds

/-- Two passes on an engine, carried out to the end, neither of which has carried out a section
yet. The early one has selected its rules before the late one does so in a section. -/
structure Overlap (collaborators : Collaborators (List Handoff)) (callers : List Nat)
    (traffic : Traffic (List Handoff)) (early late : Nat) (first second : Reading)
    (opening : List (Section (List Handoff))) (chosen : Section (List Handoff))
    (later : List (Section (List Handoff))) : Prop where
  calls : ∀ caller call, traffic.calls[caller]? = some call → caller = early ∨ caller = late
  apart : early ≠ late
  asksEarly : traffic.calls[early]? = some (.asked (.schedule (some first)))
  asksLate : traffic.calls[late]? = some (.asked (.schedule (some second)))
  answered : ∀ call ∈ (traffic.follow collaborators callers).2.calls, call.isAnswered = true
  split : (traffic.follow collaborators callers).1 = opening ++ chosen :: later
  begun : opening ≠ []
  opens : ∀ taken ∈ opening, taken.caller = early
  selects : chosen.caller = late

namespace Overlap

variable {collaborators : Collaborators (List Handoff)} {callers : List Nat}
  {traffic : Traffic (List Handoff)} {early late : Nat} {first second : Reading}
  {opening : List (Section (List Handoff))} {chosen : Section (List Handoff)}
  {later : List (Section (List Handoff))} {reply : Handoff → Except Failure Reply}

section

variable (overlap : Overlap collaborators callers traffic early late first second opening chosen
  later)

include overlap

/-- Both calls carry out rules. -/
theorem carriesOut : ∀ call ∈ traffic.calls, call.carriesOut = true := by
  intro call member
  obtain ⟨caller, there⟩ := List.mem_iff_getElem?.mp member
  rcases overlap.calls caller call there with rfl | rfl
  · obtain rfl := Option.some.inj (there.symm.trans overlap.asksEarly)
    rfl
  · obtain rfl := Option.some.inj (there.symm.trans overlap.asksLate)
    rfl

/-- A section of either pass is one of the early or of the late one. -/
theorem caller_eq : ∀ taken ∈ (traffic.follow collaborators callers).1,
    taken.caller = early ∨ taken.caller = late := by
  intro taken member
  have inside := Traffic.caller_follow callers traffic taken member
  exact overlap.calls taken.caller _ (List.getElem?_eq_getElem inside)

/-- A call that was there is answered in the end. -/
theorem isAnswered {caller : Nat} {call : Call} (there : traffic.calls[caller]? = some call) :
    ∃ outcome, (traffic.follow collaborators callers).2.calls[caller]? =
      some (.answered outcome) := by
  obtain ⟨last, reached, _⟩ := Traffic.course_follow collaborators callers traffic there
  have answered := overlap.answered last (List.mem_of_getElem? reached)
  cases last with
  | answered outcome => exact ⟨outcome, reached⟩
  | _ => cases answered

/-- The sections of the early pass are those before the late one has selected its rules, and
some that come later. -/
theorem of_early : Section.of early (traffic.follow collaborators callers).1 =
    opening ++ Section.of early later := by
  have own : opening.filter (·.caller == early) = opening :=
    List.filter_eq_self.mpr fun taken member => by simpa using overlap.opens taken member
  have other : (chosen.caller == early) = false := by
    simpa [overlap.selects] using overlap.apart.symm
  rw [Section.of, overlap.split, List.filter_append, own, List.filter_cons_of_neg (by simp [other])]
  rfl

/-- The sections of the late pass start with its selection. -/
theorem of_late : Section.of late (traffic.follow collaborators callers).1 =
    chosen :: Section.of late later := by
  have none : opening.filter (·.caller == late) = [] :=
    List.filter_eq_nil_iff.mpr fun taken member => by
      simpa [overlap.opens taken member] using overlap.apart
  rw [Section.of, overlap.split, List.filter_append, none,
    List.filter_cons_of_pos (by simp [overlap.selects])]
  rfl

variable (behaves : collaborators.Behaves (recording reply))
  (distinct : Distinct traffic.engine.rules)

include behaves distinct

/-- What the early pass carries out, before the late one has selected its rules and after. -/
theorem early_carries : Carries reply collaborators.assisted first (traffic.engine.dueRules first)
    (Section.allDeeds opening ++ Section.allDeeds (Section.of early later)) := by
  obtain ⟨outcome, answered⟩ := overlap.isAnswered overlap.asksEarly
  obtain ⟨head, rest, own, silent, carries⟩ := Traffic.schedule_follow behaves callers traffic
    overlap.carriesOut distinct overlap.asksEarly answered
  rw [overlap.of_early] at own
  obtain ⟨tail, rfl⟩ : ∃ tail, opening = head :: tail := by
    cases opening with
    | nil => exact absurd rfl overlap.begun
    | cons taken tail => exact ⟨tail, by rw [(List.cons.inj own).1]⟩
  obtain rfl : tail ++ Section.of early later = rest := (List.cons.inj own).2
  have found : head.found.rules = traffic.engine.rules :=
    Traffic.found_follow behaves.detached callers traffic [] overlap.split
  rw [Engine.dueRules_congr found] at carries
  simpa only [Section.allDeeds, List.flatMap_cons, silent, List.nil_append, List.flatMap_append]
    using carries

/-- What the late pass carries out, all of it after it has selected its rules. -/
theorem late_carries : chosen.deeds = [] ∧
    Carries reply collaborators.assisted second (chosen.found.dueRules second)
      (Section.allDeeds (Section.of late later)) := by
  obtain ⟨outcome, answered⟩ := overlap.isAnswered overlap.asksLate
  obtain ⟨head, rest, own, silent, carries⟩ := Traffic.schedule_follow behaves callers traffic
    overlap.carriesOut distinct overlap.asksLate answered
  rw [overlap.of_late] at own
  obtain ⟨rfl, rfl⟩ := List.cons.inj own
  exact ⟨silent, carries⟩

/-- The early pass counts executions before the late one selects its rules and after. -/
theorem early_counts : traffic.engine.running reply collaborators.assisted first =
    Section.countedIds opening ++ Section.countedIds (Section.of early later) ∧
      Deed.amendments (Section.allDeeds opening) =
        (Section.countedIds opening).map (Amendment.count · first.instant) := by
  have amendments := (overlap.early_carries behaves distinct).amendments
  rw [Deed.amendments_append] at amendments
  obtain ⟨counted, owed, both, before, after⟩ := List.map_eq_append_iff.mp amendments.symm
  have counts : Section.countedIds opening = counted := by
    rw [Section.countedIds, ← before, Amendment.countedIds_count]
  have owes : Section.countedIds (Section.of early later) = owed := by
    rw [Section.countedIds, ← after, Amendment.countedIds_count]
  rw [counts, owes]
  exact ⟨both, before.symm⟩

/-- No rule is counted twice by the early pass. -/
theorem countedIds_nodup :
    (Section.countedIds opening ++ Section.countedIds (Section.of early later)).Nodup :=
  (overlap.early_counts behaves distinct).1 ▸ Engine.running_nodup distinct

/-- The late pass finds the executions counted that the early one has counted before. -/
theorem found_credited : chosen.found.rules =
    credited (Section.countedIds opening) first.instant traffic.engine.rules := by
  rw [Traffic.found_follow behaves.detached callers traffic opening overlap.split,
    (overlap.early_counts behaves distinct).2,
    Amendment.foldl_count distinct (overlap.countedIds_nodup behaves distinct).of_append_left]

/-- The late pass selects from rules that are still distinct. -/
theorem found_distinct : Distinct chosen.found.rules :=
  overlap.found_credited behaves distinct ▸ distinct.credited _ _

/-- A rule that the late pass finds was registered before. -/
theorem exists_original {rule : Rule} (member : rule ∈ chosen.found.rules) :
    ∃ original ∈ traffic.engine.rules, rule.body = original.body := by
  rw [overlap.found_credited behaves distinct] at member
  obtain ⟨original, present, rfl⟩ := List.mem_map.mp member
  exact ⟨original, present, Rule.credited_body _ _ original⟩

/-- The executions that the early pass counts late are of rules that are active. -/
theorem isActive_of_owed {rule : Rule} (member : rule ∈ chosen.found.rules)
    (owed : rule.id ∈ Section.countedIds (Section.of early later)) : rule.isActive = true := by
  obtain ⟨original, present, body⟩ := overlap.exists_original behaves distinct member
  obtain ⟨named, active, _⟩ := Rule.same_of_body reply collaborators.assisted .null body
  have runs : original.id ∈ traffic.engine.running reply collaborators.assisted first := by
    rw [(overlap.early_counts behaves distinct).1, ← named]
    exact List.mem_append_right _ owed
  rw [active]
  exact ((Engine.mem_running distinct present).mp runs).1

/-- The rules that a pass after the early one finds are those that the late one has found, with
the executions counted that the early pass counts after that. -/
theorem rules_after_early : (traffic.engine.runSchedule collaborators first).2.rules =
    credited (Section.countedIds (Section.of early later)) first.instant chosen.found.rules := by
  obtain ⟨_, rules⟩ := Engine.runSchedule_account behaves first traffic.engine distinct
  have apart := overlap.countedIds_nodup behaves distinct
  rw [rules, (overlap.early_counts behaves distinct).1, List.map_append, List.foldl_append,
    Amendment.foldl_count distinct apart.of_append_left, ← overlap.found_credited behaves distinct,
    Amendment.foldl_count (overlap.found_distinct behaves distinct) apart.of_append_right]

/-- All deeds are those of the early pass and those of the late one, but for their order. -/
theorem deeds_perm : (Section.allDeeds (traffic.follow collaborators callers).1).Perm
    ((Section.allDeeds opening ++ Section.allDeeds (Section.of early later)) ++
      Section.allDeeds (Section.of late later)) := by
  have both := Section.allDeeds_perm (Section.of_append_perm overlap.apart overlap.caller_eq)
  have silent := (overlap.late_carries behaves distinct).1
  rw [overlap.of_early, overlap.of_late] at both
  simpa only [Section.allDeeds, List.flatMap_append, List.flatMap_cons, silent, List.nil_append]
    using both.symm

/-- The collaborators have received what each pass hands over, but for the order. -/
theorem outside_perm : (traffic.follow collaborators callers).2.engine.outside.Perm
    (traffic.engine.outside ++ (traffic.engine.sending reply collaborators.assisted first ++
      chosen.found.sending reply collaborators.assisted second)) := by
  have handed := (overlap.deeds_perm behaves distinct).filterMap Deed.handoff?
  rw [List.filterMap_append] at handed
  rw [Traffic.received_follow behaves callers traffic overlap.carriesOut, Engine.sending,
    Engine.sending, ← (overlap.early_carries behaves distinct).handoffs,
    ← (overlap.late_carries behaves distinct).2.handoffs]
  exact handed.append_left traffic.engine.outside

/-- Apart from the times, the rules are left with what each pass counts. -/
theorem unstamped_rules : (traffic.follow collaborators callers).2.engine.rules.map Rule.unstamped =
    traffic.engine.rules.map fun rule => rule.tallied
      ((traffic.engine.running reply collaborators.assisted first ++
        chosen.found.running reply collaborators.assisted second).count rule.id) := by
  have counted := (overlap.deeds_perm behaves distinct).filterMap Deed.amendment?
  rw [List.filterMap_append] at counted
  rw [Traffic.rules_follow behaves.detached]
  refine Amendment.foldl_of_perm first.instant second.instant ?_ distinct
  rw [Engine.running, Engine.running, ← (overlap.early_carries behaves distinct).amendments,
    ← (overlap.late_carries behaves distinct).2.amendments]
  exact counted

/-- Apart from the times, the passes leave the rules as one after the other if and only if the
executions that the early one counts late make no rule due or not that runs in the late one. -/
theorem unstamped_serial_iff :
    (traffic.follow collaborators callers).2.engine.rules.map Rule.unstamped =
        ((traffic.engine.runSchedule collaborators first).2.runSchedule collaborators
          second).2.rules.map Rule.unstamped ↔
      ∀ rule ∈ chosen.found.rules, rule.id ∈ Section.countedIds (Section.of early later) →
        rule.runs reply collaborators.assisted (Engine.scheduleContext second.instant) = true →
          (rule.executed first.instant).isDue second = rule.isDue second := by
  have after := overlap.rules_after_early behaves distinct
  have apart := overlap.found_distinct behaves distinct
  have ids : traffic.engine.rules.map Rule.id = chosen.found.rules.map Rule.id := by
    rw [overlap.found_credited behaves distinct, map_id_credited]
  have apartNext : Distinct (traffic.engine.runSchedule collaborators first).2.rules :=
    after ▸ apart.credited _ _
  let counted := traffic.engine.running reply collaborators.assisted first
  let overlapping := chosen.found.running reply collaborators.assisted second
  let next := (traffic.engine.runSchedule collaborators first).2.running reply
    collaborators.assisted second
  rw [overlap.unstamped_rules behaves distinct, (Engine.serial_account behaves first second
    traffic.engine distinct).2, List.map_inj_left]
  calc (∀ rule ∈ traffic.engine.rules, rule.tallied ((counted ++ overlapping).count rule.id) =
          rule.tallied ((counted ++ next).count rule.id))
      ↔ ∀ rule ∈ traffic.engine.rules, (rule.id ∈ overlapping ↔ rule.id ∈ next) :=
        forall₂_congr fun rule _ => Rule.tallied_inj (Engine.running_nodup distinct)
          (Engine.running_nodup apart) (Engine.running_nodup apartNext)
    _ ↔ ∀ id ∈ chosen.found.rules.map Rule.id, (id ∈ overlapping ↔ id ∈ next) := by
        rw [← ids, List.forall_mem_map]
    _ ↔ ∀ rule ∈ chosen.found.rules, rule.id ∈ Section.countedIds (Section.of early later) →
          rule.runs reply collaborators.assisted (Engine.scheduleContext second.instant) = true →
            (rule.executed first.instant).isDue second = rule.isDue second := by
        rw [List.forall_mem_map]
        exact Engine.running_credited_iff after apart fun rule member =>
          overlap.isActive_of_owed behaves distinct member

/-- Where the executions that the early pass counts late make no rule due or not, the passes hand
over the same as one after the other, but for the order. -/
theorem outside_perm_serial (same : ∀ rule ∈ chosen.found.rules,
    rule.id ∈ Section.countedIds (Section.of early later) →
      (rule.executed first.instant).isDue second = rule.isDue second) :
    (traffic.follow collaborators callers).2.engine.outside.Perm
      ((traffic.engine.runSchedule collaborators first).2.runSchedule collaborators
        second).2.outside := by
  rw [(Engine.serial_account behaves first second traffic.engine distinct).1,
    Engine.sending_credited (overlap.rules_after_early behaves distinct) same]
  exact overlap.outside_perm behaves distinct

end

end Overlap

/-- A call that is asked and gets answered has carried out some section. -/
theorem Traffic.section_of_answered {σ : Type} {collaborators : Collaborators σ}
    {callers : List Nat} {traffic : Traffic σ} {caller : Nat} {command : Command}
    (asked : traffic.calls[caller]? = some (.asked command))
    (answered : ∀ call ∈ (traffic.follow collaborators callers).2.calls, call.isAnswered = true) :
    ∃ taken ∈ (traffic.follow collaborators callers).1, taken.caller = caller := by
  obtain ⟨last, reached, course⟩ := course_follow collaborators callers traffic asked
  have done := answered last (List.mem_of_getElem? reached)
  cases sections : Section.of caller (traffic.follow collaborators callers).1 with
  | nil =>
    rw [sections] at course
    cases course
    cases done
  | cons taken rest =>
    have own : taken ∈ Section.of caller (traffic.follow collaborators callers).1 := by
      rw [sections]
      exact List.mem_cons_self
    obtain ⟨member, same⟩ := List.mem_filter.mp own
    exact ⟨taken, member, by simpa using same⟩

section

variable {collaborators : Collaborators (List Handoff)} {callers : List Nat}
  {traffic : Traffic (List Handoff)} {early late : Nat} {first second : Reading}

/-- The pass that carries out the first section is the early one. -/
theorem Overlap.of_first
    (calls : ∀ caller call, traffic.calls[caller]? = some call → caller = early ∨ caller = late)
    (apart : early ≠ late)
    (asksEarly : traffic.calls[early]? = some (.asked (.schedule (some first))))
    (asksLate : traffic.calls[late]? = some (.asked (.schedule (some second))))
    (answered : ∀ call ∈ (traffic.follow collaborators callers).2.calls, call.isAnswered = true)
    {head : Section (List Handoff)} {tail : List (Section (List Handoff))}
    (starts : (traffic.follow collaborators callers).1 = head :: tail)
    (opens : head.caller = early) :
    ∃ opening chosen later,
      Overlap collaborators callers traffic early late first second opening chosen later := by
  obtain ⟨taken, member, lateOne⟩ := Traffic.section_of_answered asksLate answered
  have present : ((traffic.follow collaborators callers).1.find? (·.caller == late)).isSome :=
    List.find?_isSome.mpr ⟨taken, member, by simpa using lateOne⟩
  obtain ⟨chosen, found⟩ := Option.isSome_iff_exists.mp present
  obtain ⟨selects, opening, later, split, before⟩ := List.find?_eq_some_iff_append.mp found
  refine ⟨opening, chosen, later, calls, apart, asksEarly, asksLate, answered, split, ?_, ?_,
    by simpa using selects⟩
  · rintro rfl
    obtain rfl : head = chosen := (List.cons.inj (starts.symm.trans split)).1
    exact apart (opens.symm.trans (by simpa using selects))
  · intro earlier among
    have inside : earlier ∈ (traffic.follow collaborators callers).1 :=
      split ▸ List.mem_append_left _ among
    have there := Traffic.caller_follow callers traffic earlier inside
    refine (calls earlier.caller _ (List.getElem?_eq_getElem there)).resolve_right ?_
    simpa using before earlier among

end

namespace Traffic

variable {collaborators : Collaborators (List Handoff)}

/-- Of two passes that are carried out to the end, one selects its rules first. -/
theorem overlap_of_answered (engine : Engine (List Handoff)) (one other : Reading)
    (callers : List Nat) :
    let traffic : Traffic (List Handoff) :=
      ⟨engine, [.asked (.schedule (some one)), .asked (.schedule (some other))]⟩
    (∀ call ∈ (traffic.follow collaborators callers).2.calls, call.isAnswered = true) →
      ∃ early late first second opening chosen later,
        Overlap collaborators callers traffic early late first second opening chosen later := by
  intro traffic answered
  have two (caller : Nat) (call : Call) (there : traffic.calls[caller]? = some call) :
      caller = 0 ∨ caller = 1 := by
    have inside : caller < 2 := (List.getElem?_eq_some_iff.mp there).1
    omega
  have asked : traffic.calls[0]? = some (.asked (.schedule (some one))) := rfl
  cases starts : (traffic.follow collaborators callers).1 with
  | nil =>
    obtain ⟨taken, member, _⟩ := section_of_answered asked answered
    rw [starts] at member
    cases member
  | cons head tail =>
    have member : head ∈ (traffic.follow collaborators callers).1 := starts ▸ List.mem_cons_self
    have inside : head.caller < 2 := caller_follow callers traffic head member
    obtain opens | opens : head.caller = 0 ∨ head.caller = 1 := by omega
    · exact ⟨0, 1, one, other, Overlap.of_first two (by decide) rfl rfl answered starts opens⟩
    · have swapped (caller : Nat) (call : Call) (there : traffic.calls[caller]? = some call) :=
        (two caller call there).symm
      exact ⟨1, 0, other, one,
        Overlap.of_first swapped (by decide) rfl rfl answered starts opens⟩

/-- Two passes on a schedule that overlap leave every rule with as many executions as one after
the other if and only if the executions that the early one counts after the late one has selected
its rules make none of these due or not that runs in the late one. Where they make no rule due or
not at all, the collaborators have received the same messages, but for their order. In particular
that is so where the early one has counted all of its executions by then. -/
theorem overlapping_passes_serialize {reply : Handoff → Except Failure Reply}
    (behaves : collaborators.Behaves (recording reply)) (engine : Engine (List Handoff))
    (distinct : Distinct engine.rules) (one other : Reading) (callers : List Nat) :
    let traffic : Traffic (List Handoff) :=
      ⟨engine, [.asked (.schedule (some one)), .asked (.schedule (some other))]⟩
    let last := (traffic.follow collaborators callers).2
    (∀ call ∈ last.calls, call.isAnswered = true) →
      ∃ early late first second opening chosen later,
        Overlap collaborators callers traffic early late first second opening chosen later ∧
        let owed := Section.countedIds (Section.of early later)
        let after := (engine.runSchedule collaborators first).2
        let serial := (after.runSchedule collaborators second).2
        (last.engine.rules.map Rule.unstamped = serial.rules.map Rule.unstamped ↔
          ∀ rule ∈ chosen.found.rules, rule.id ∈ owed →
            rule.runs reply collaborators.assisted (Engine.scheduleContext second.instant) = true →
              (rule.executed first.instant).isDue second = rule.isDue second) ∧
        ((∀ rule ∈ chosen.found.rules, rule.id ∈ owed →
            (rule.executed first.instant).isDue second = rule.isDue second) →
          last.engine.outside.Perm serial.outside) := by
  intro traffic last answered
  obtain ⟨early, late, first, second, opening, chosen, later, overlap⟩ :=
    overlap_of_answered engine one other callers answered
  exact ⟨early, late, first, second, opening, chosen, later, overlap,
    overlap.unstamped_serial_iff behaves distinct, overlap.outside_perm_serial behaves distinct⟩

/-- An engine that knows no rule but the reminder, and a record of what was handed over. -/
def reminded : Engine (List Handoff) where
  rules := [Engine.reminder]
  supply := ⟨fun _ => ⟨⟨0, 0⟩, 0⟩, fun _ => "0", 0, 0⟩
  outside := []

/-- Collaborators that succeed with everything. -/
def obliging : Collaborators (List Handoff) := .following true (recording fun _ => .ok .done)

/-- Two passes over the reminder. -/
def remindings (one other : Reading) : Traffic (List Handoff) :=
  ⟨reminded, [.asked (.schedule (some one)), .asked (.schedule (some other))]⟩

/-- Both passes select their rules before either of them goes on. -/
def selectingFirst : List Nat := [0, 1] ++ List.replicate 7 0 ++ List.replicate 7 1

/-- Two passes on different days come to the same as one after the other, although both select
before either counts. -/
theorem mornings_serialize :
    let last := ((remindings Engine.firstMorning Engine.secondMorning).follow obliging
      selectingFirst).2
    let serial := ((reminded.runSchedule obliging Engine.firstMorning).2.runSchedule obliging
      Engine.secondMorning).2
    (∀ call ∈ last.calls, call.isAnswered = true) ∧
      last.engine.rules.map Rule.unstamped = serial.rules.map Rule.unstamped ∧
      last.engine.outside.Perm serial.outside := by
  intro last serial
  have answered : ∀ call ∈ last.calls, call.isAnswered = true := by decide +kernel
  obtain ⟨early, late, first, second, opening, chosen, later, overlap, agree, handed⟩ :=
    overlapping_passes_serialize (Collaborators.following_behaves true _) reminded
      (List.nodup_singleton _) Engine.firstMorning Engine.secondMorning selectingFirst answered
  let passes := (remindings Engine.firstMorning Engine.secondMorning).follow obliging selectingFirst
  have order : passes.1.map Section.caller =
      0 :: 1 :: (List.replicate 7 0 ++ List.replicate 7 1) := by decide +kernel
  have rules : passes.1.map (·.found.rules) = [Engine.reminder] :: [Engine.reminder] ::
      (passes.1.map (·.found.rules)).drop 2 := by decide +kernel
  -- The first two sections are the selections of the two passes, so nothing comes before.
  rw [show passes.1 = opening ++ chosen :: later from overlap.split] at order rules
  match opening, overlap.begun, overlap.opens with
  | head :: next :: rest, _, opens =>
    have earlier := opens head List.mem_cons_self
    have same := opens next (List.mem_cons_of_mem _ List.mem_cons_self)
    have callers := List.cons.inj order
    have nextOne : next.caller = 1 := (List.cons.inj callers.2).1
    have firstOne : head.caller = 0 := callers.1
    omega
  | [head], _, opens =>
    have firstOne : head.caller = 0 := (List.cons.inj order).1
    have secondOne : chosen.caller = 1 := (List.cons.inj (List.cons.inj order).2).1
    have found : chosen.found.rules = [Engine.reminder] := (List.cons.inj (List.cons.inj rules).2).1
    obtain rfl : early = 0 := (opens head List.mem_cons_self).symm.trans firstOne
    obtain rfl : late = 1 := overlap.selects.symm.trans secondOne
    cases overlap.asksEarly
    cases overlap.asksLate
    have due : ∀ rule ∈ chosen.found.rules, (rule.executed Engine.firstMorning.instant).isDue
        Engine.secondMorning = rule.isDue Engine.secondMorning := by
      rw [found]
      decide +kernel
    exact ⟨answered, agree.mpr fun rule member _ _ => due rule member,
      handed fun rule member _ => due rule member⟩

/-- The noon of the first day. -/
def noon : Reading := ⟨⟨43200, 0⟩, 0⟩

/-- Two passes at times of the same day remind twice if both select before either counts, and no
order of one after the other does so. -/
theorem same_day_reminds_twice :
    let last := ((remindings Engine.firstMorning noon).follow obliging selectingFirst).2
    let serial (first second : Reading) :=
      ((reminded.runSchedule obliging first).2.runSchedule obliging second).2
    Engine.firstMorning.day = noon.day ∧ Distinct reminded.rules ∧
      (∀ call ∈ last.calls, call.isAnswered = true) ∧
      last.engine.rules.map Rule.executionCount = [2] ∧ last.engine.outside.length = 2 ∧
      ∀ first second, (first, second) ∈ [(Engine.firstMorning, noon), (noon, Engine.firstMorning)] →
        (serial first second).rules.map Rule.executionCount = [1] ∧
          ¬last.engine.outside.Perm (serial first second).outside := by
  intro last serial
  have once : ∀ first second,
      (first, second) ∈ [(Engine.firstMorning, noon), (noon, Engine.firstMorning)] →
        (serial first second).rules.map Rule.executionCount = [1] ∧
          (serial first second).outside.length = 1 := by
    intro first second among
    simp only [List.mem_cons, Prod.mk.injEq, List.not_mem_nil, or_false] at among
    rcases among with ⟨rfl, rfl⟩ | ⟨rfl, rfl⟩ <;> decide +kernel
  have twice : last.engine.outside.length = 2 := by decide +kernel
  refine ⟨by decide +kernel, List.nodup_singleton _, by decide +kernel, by decide +kernel,
    twice, ?_⟩
  intro first second among
  refine ⟨(once first second among).1, fun perm => ?_⟩
  have lengths := perm.length_eq
  rw [twice, (once first second among).2] at lengths
  cases lengths

end Traffic
end CampusRules
