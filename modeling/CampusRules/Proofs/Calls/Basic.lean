import CampusRules.Proofs.Calls.Amendment
import CampusRules.Proofs.Engine.Exchange

/-!
# Calls in progress

An engine is asked several things at once: the ticker lets its schedule run while callers
add, change and carry out rules. Each call is carried out section by section, and between two
sections of one call there may be sections of any other.

A call that changes the registry does so in one section, with the document, and sends its
event in another. A call that carries out rules selects them in one section. Then each rule
has its turn: it is looked up, its conditions are evaluated, its actions are carried out one
by one, its execution is counted, the registry is read to be saved, it is written, and the
execution is told. Only the lock for saving keeps others out. It is held from reading the
registry to having written it, and a change of the registry is made only while it is free.

`Traffic.follow` lets calls go on in any order, and tells what every section found, did and
left. What collaborators do while they are handed a message is part of that section; a
collaborator that calls back in several sections is one more caller.
-/

namespace CampusRules

/-- What a section does that matters to others, or to the account of an execution. -/
inductive Deed where
  | amended (amendment : Amendment)
  | saved (outcome : Except Failure Unit)
  | looked (id : String) (found : Option Rule)
  | decided (holds : Bool)
  | handed (handoff : Handoff)

/-- What rules are carried out for: what they get to see, the reason, and the time. Where no
time is given, each is carried out at the time that the clock shows at its turn. -/
structure Occasion where
  context : Json
  reason : String
  time : Option Instant

/-- How far the rule has got whose turn it is. A rule that was found is carried out in the
version that was found, whatever becomes of the registry. -/
inductive Stage where
  | next
  | found (rule : Rule) (time : Instant)
  | acting (rule : Rule) (time : Instant) (index : Nat) (left : List Action)
  | counted (id : String) (count : UInt64)
  | writing (id : String) (count : UInt64) (snapshot : List Rule)
  | ended (id : String) (count : UInt64)

/-- A call that carries out rules: those that wait for their turn, and those that ran. -/
structure Round where
  command : Command
  occasion : Occasion
  stage : Stage
  waiting : List String
  ran : List String

/-- A call, as far as it has got. -/
inductive Call where
  | asked (command : Command)
  | telling (events : List Event) (outcome : Except Failure Answer)
  | carrying (round : Round)
  | answered (outcome : Except Failure Answer)

/-- What a call comes to in one section: its deeds, how far the call has got then, and the
engine that is left. -/
abbrev Advance (σ : Type) := List Deed × Call × Engine σ

variable {σ : Type}

/-- The time of a turn, and the engine after finding it out. -/
def Occasion.moment (occasion : Occasion) (engine : Engine σ) : Instant × Engine σ :=
  match occasion.time with
  | some time => (time, engine)
  | none => (engine.look.1.instant, engine.look.2)

/-- To find out the time of a turn consumes a reading of the clock at most. -/
theorem Occasion.moment_engine (occasion : Occasion) (engine : Engine σ) :
    (occasion.moment engine).2 =
      { engine with supply := (occasion.moment engine).2.supply } := by
  unfold Occasion.moment
  split <;> rfl

namespace Command

/-- What a change of the registry did to an engine, by its outcome. -/
def deeds (command : Command) (engine : Engine σ) (outcome : Except Failure Answer) : List Deed :=
  match command, outcome with
  | .add new, .ok (.added _) => [.amended (.append (engine.make new).1), .saved (.ok ())]
  | .remove id, .ok (.done true) => [.amended (.erase id), .saved (.ok ())]
  | .update id change, .ok (.done true) => [.amended (.merge id change), .saved (.ok ())]
  | _, .error (.storage reason) => [.saved (.error (.storage reason))]
  | _, _ => []

/-- What a call answers that has carried out rules. -/
def conclusion (ran : List String) : Command → Answer
  | .execute _ _ => .done (!ran.isEmpty)
  | _ => .ran ran

end Command

namespace Round

variable (collaborators : Collaborators σ)

/-- A round whose rule has reached a stage. -/
def reaching (stage : Stage) (round : Round) : Call := .carrying { round with stage }

/-- Looks up the next rule, at the time of the occasion or of the clock. Without a next rule
the call is answered. -/
def lookUp (round : Round) (engine : Engine σ) : Advance σ :=
  match round.waiting with
  | [] => ([], .answered (.ok (round.command.conclusion round.ran)), engine)
  | id :: waiting =>
    let looked := round.occasion.moment engine
    match (looked.2.find? id).filter (·.isActive) with
    | none => ([.looked id none], reaching .next { round with waiting }, looked.2)
    | some rule =>
      ([.looked id (some rule)], reaching (.found rule looked.1) { round with waiting }, looked.2)

/-- Tells that a rule is carried out, and evaluates its conditions. -/
def decideOn (round : Round) (rule : Rule) (time : Instant) (engine : Engine σ) : Advance σ :=
  let triggered := engine.announce (.triggered rule.id round.occasion.reason)
  if Conditions.hold rule.conditions round.occasion.context then
    ([.decided true], round.reaching (.acting rule time 0 rule.actions), triggered)
  else ([.decided false], round.reaching .next, triggered.announce (.skipped rule.id))

/-- Carries out one action of a rule. -/
def act (round : Round) (rule : Rule) (time : Instant) (index : Nat) (action : Action)
    (left : List Action) (engine : Engine σ) : Advance σ :=
  let context := round.occasion.context
  let deeds := (action.message? collaborators.assisted context).toList.map .handed
  let started := engine.announceAction (.started rule.id index action.kind)
  match Engine.perform collaborators action context started with
  | (.ok (), after) =>
    (deeds, round.reaching (.acting rule time (index + 1) left),
      after.announceAction (.completed rule.id index))
  | (.error failure, after) =>
    (deeds, round.reaching .next,
      (after.announceAction (.failed rule.id index failure.message)).announce
        (.failed rule.id failure.message))

/-- Counts an execution. Where the rule is gone, nothing is left to be saved. -/
def count (round : Round) (id : String) (time : Instant) (engine : Engine σ) : Advance σ :=
  match engine.bump id time with
  | (none, same) => ([.amended (.count id time)], round.reaching (.ended id 0), same)
  | (some count, bumped) =>
    ([.amended (.count id time)], round.reaching (.counted id count), bumped)

/-- Reads the registry to save it, if it is stored at all. -/
def snapshot (round : Round) (id : String) (count : UInt64) (engine : Engine σ) : Advance σ :=
  match engine.storage with
  | none => ([], round.reaching (.ended id count), engine)
  | some _ => ([], round.reaching (.writing id count engine.rules), engine)

/-- Carries out one section of a round. -/
def advance (round : Round) (engine : Engine σ) : Advance σ :=
  match round.stage with
  | .next => round.lookUp engine
  | .found rule time => round.decideOn rule time engine
  | .acting rule time index (action :: left) =>
    round.act collaborators rule time index action left engine
  | .acting rule time _ [] => round.count rule.id time engine
  | .counted id count => round.snapshot id count engine
  | .writing id count snapshot =>
    let (outcome, after) := engine.save snapshot
    ([.saved outcome], round.reaching (.ended id count), after)
  | .ended id count =>
    ([], reaching .next { round with ran := round.ran ++ [id] },
      engine.announce (.executed id count))

end Round

namespace Call

variable (collaborators : Collaborators σ)

/-- A call that begins to carry out rules. -/
def begin (command : Command) (occasion : Occasion) (waiting : List String) : Call :=
  .carrying ⟨command, occasion, .next, waiting, []⟩

/-- Begins to do what is asked: selects the rules that are to be carried out, or does all of
it but sending its events. -/
def start (command : Command) (engine : Engine σ) : Advance σ :=
  match command with
  | .execute id context => ([], begin command ⟨context, "manual", none⟩ [id], engine)
  | .trigger event context =>
    ([], begin command ⟨context, "event:" ++ event, none⟩ (engine.listeners event), engine)
  | .schedule none => ([], .asked (.schedule (some engine.look.1)), engine.look.2)
  | .schedule (some now) =>
    ([], begin command ⟨Engine.scheduleContext now.instant, "schedule", some now.instant⟩
      (engine.due now), engine)
  | quiet =>
    let (outcome, after) := engine.run collaborators quiet
    (quiet.deeds engine outcome, .telling (after.events.drop engine.events.length) outcome,
      { after with events := engine.events })

/-- A command that carries out no rule does all of its work at once. -/
theorem start_of_quiet {command : Command} (quiet : command.carriesOut = false)
    (engine : Engine σ) :
    start collaborators command engine =
      (command.deeds engine (engine.run collaborators command).1,
        .telling ((engine.run collaborators command).2.events.drop engine.events.length)
          (engine.run collaborators command).1,
        { (engine.run collaborators command).2 with events := engine.events }) := by
  cases command with
  | execute | trigger | schedule => cases quiet
  | _ => rfl

/-- Carries out one section of a call. -/
def advance (call : Call) (engine : Engine σ) : Advance σ :=
  match call with
  | .asked command => start collaborators command engine
  | .telling events outcome =>
    ([], .answered outcome, { engine with events := engine.events ++ events })
  | .carrying round => round.advance collaborators engine
  | .answered outcome => ([], .answered outcome, engine)

/-- Whether the next section of a call begins with the lock for saving. -/
def needsLock (engine : Engine σ) : Call → Bool
  | .asked (.add _) | .asked (.remove _) | .asked (.update _ _) => true
  | .carrying ⟨_, _, .counted _ _, _, _⟩ => engine.storage.isSome
  | _ => false

/-- Whether a call holds the lock for saving between two sections. -/
def holdsLock : Call → Bool
  | .carrying ⟨_, _, .writing _ _ _, _, _⟩ => true
  | _ => false

/-- Whether a call is answered. -/
def isAnswered : Call → Bool
  | .answered _ => true
  | _ => false

end Call

/-- A section of a call: the caller, the engine as the section found it, its deeds, and the
engine as it left it. -/
structure Section (σ : Type) where
  caller : Nat
  found : Engine σ
  deeds : List Deed
  left : Engine σ

/-- An engine with the calls that are made to it. -/
structure Traffic (σ : Type) where
  engine : Engine σ
  calls : List Call

namespace Traffic

variable (collaborators : Collaborators σ)

/-- Lets a call go on by a section, unless there is no such call or another one keeps it out. -/
def step (caller : Nat) (traffic : Traffic σ) : Option (Section σ × Traffic σ) :=
  match traffic.calls[caller]? with
  | none => none
  | some call =>
    if call.needsLock traffic.engine && traffic.calls.any Call.holdsLock then none
    else
      let (deeds, after, engine) := call.advance collaborators traffic.engine
      some (⟨caller, traffic.engine, deeds, engine⟩, ⟨engine, traffic.calls.set caller after⟩)

/-- Lets calls go on in the order of a list of callers. Gives the sections that were carried
out, and what they lead to. -/
def follow : (callers : List Nat) → Traffic σ → List (Section σ) × Traffic σ
  | [], traffic => ([], traffic)
  | caller :: callers, traffic =>
    match traffic.step collaborators caller with
    | none => follow callers traffic
    | some (taken, after) =>
      let (others, last) := follow callers after
      (taken :: others, last)

end Traffic

/-- The sections of one caller. -/
def Section.of (caller : Nat) (sections : List (Section σ)) : List (Section σ) :=
  sections.filter (·.caller == caller)

/-- The deeds of sections, in order. -/
def Section.allDeeds (sections : List (Section σ)) : List Deed := sections.flatMap Section.deeds

/-- The deeds of one more section come last. -/
theorem Section.allDeeds_concat (sections : List (Section σ)) (taken : Section σ) :
    Section.allDeeds (sections ++ [taken]) = Section.allDeeds sections ++ taken.deeds := by
  simp [Section.allDeeds]

/-- A row of sections that take a call from one point to another. In between, anything may
have happened to the engine: each section is carried out on the engine that it finds. -/
inductive Course (collaborators : Collaborators σ) : Call → List (Section σ) → Call → Prop where
  | done (call : Call) : Course collaborators call [] call
  | step (caller : Nat) (call : Call) (found : Engine σ) {rest : List (Section σ)} {last : Call}
      (others : Course collaborators (call.advance collaborators found).2.1 rest last) :
      Course collaborators call
        (⟨caller, found, (call.advance collaborators found).1,
          (call.advance collaborators found).2.2⟩ :: rest) last

/-- A call that is answered stays answered and does nothing any more. -/
theorem Course.idle {collaborators : Collaborators σ} {outcome : Except Failure Answer}
    {sections : List (Section σ)} {last : Call}
    (course : Course collaborators (.answered outcome) sections last) :
    last = .answered outcome ∧ ∀ taken ∈ sections, taken.deeds = [] ∧ taken.left = taken.found := by
  generalize start : Call.answered outcome = call at course
  induction course with
  | done =>
    subst start
    exact ⟨rfl, by simp⟩
  | step caller call found others inductionHypothesis =>
    subst start
    obtain ⟨answered, idle⟩ := inductionHypothesis rfl
    exact ⟨answered, List.forall_mem_cons.mpr ⟨⟨rfl, rfl⟩, idle⟩⟩

/-- Sections of a call that is answered add no deeds. -/
theorem Course.silent {collaborators : Collaborators σ} {call last : Call}
    {sections : List (Section σ)} (course : Course collaborators call sections last)
    (answered : call.isAnswered = true) : Section.allDeeds sections = [] := by
  cases call with
  | answered outcome =>
    exact List.flatMap_eq_nil_iff.mpr fun taken member => (course.idle.2 taken member).1
  | _ => cases answered

namespace Traffic

variable {collaborators : Collaborators σ}

/-- A step carries out a section of its call on the engine as it is, and leaves the other
calls alone. -/
theorem step_eq_some {caller : Nat} {traffic after : Traffic σ} {taken : Section σ}
    (stepped : traffic.step collaborators caller = some (taken, after)) :
    ∃ call, traffic.calls[caller]? = some call ∧
      (call.needsLock traffic.engine = true → traffic.calls.any Call.holdsLock = false) ∧
      taken = ⟨caller, traffic.engine, (call.advance collaborators traffic.engine).1,
        (call.advance collaborators traffic.engine).2.2⟩ ∧
      after = ⟨(call.advance collaborators traffic.engine).2.2,
        traffic.calls.set caller (call.advance collaborators traffic.engine).2.1⟩ := by
  unfold step at stepped
  split at stepped
  · cases stepped
  · rename_i call there
    split at stepped
    · cases stepped
    · rename_i free
      cases stepped
      refine ⟨call, there, ?_, rfl, rfl⟩
      intro needed
      simpa [needed] using free

/-- What holds of calls at the beginning and is kept up by every section holds in any order of
the callers. It may depend on the sections that have been carried out so far. -/
theorem follow_induction (invariant : List (Section σ) → Traffic σ → Prop)
    (each : ∀ past caller traffic taken after, invariant past traffic →
      traffic.step collaborators caller = some (taken, after) →
        invariant (past ++ [taken]) after)
    (callers : List Nat) (traffic : Traffic σ) (start : invariant [] traffic) :
    invariant (traffic.follow collaborators callers).1
      (traffic.follow collaborators callers).2 := by
  suffices general : ∀ past, invariant past traffic →
      invariant (past ++ (traffic.follow collaborators callers).1)
        (traffic.follow collaborators callers).2 from general [] start
  clear start
  induction callers generalizing traffic with
  | nil =>
    intro past holds
    simpa only [follow, List.append_nil] using holds
  | cons caller rest inductionHypothesis =>
    intro past holds
    cases stepped : traffic.step collaborators caller with
    | none =>
      simp only [follow, stepped]
      exact inductionHypothesis traffic past holds
    | some result =>
      obtain ⟨taken, after⟩ := result
      have later := inductionHypothesis after _ (each past caller traffic taken after holds stepped)
      simp only [follow, stepped]
      rwa [List.append_assoc] at later

variable (collaborators) in
/-- In any order of the callers, the sections of one of them are a course of its call. -/
theorem course_follow {caller : Nat} {call : Call} (callers : List Nat) (traffic : Traffic σ)
    (there : traffic.calls[caller]? = some call) :
    ∃ last, (traffic.follow collaborators callers).2.calls[caller]? = some last ∧
      Course collaborators call (Section.of caller (traffic.follow collaborators callers).1)
        last := by
  induction callers generalizing traffic call with
  | nil => exact ⟨call, there, .done call⟩
  | cons next rest inductionHypothesis =>
    cases stepped : traffic.step collaborators next with
    | none =>
      simp only [follow, stepped]
      exact inductionHypothesis traffic there
    | some result =>
      obtain ⟨taken, after⟩ := result
      obtain ⟨other, present, _, rfl, rfl⟩ := step_eq_some stepped
      simp only [follow, stepped]
      by_cases same : next = caller
      · subst same
        obtain rfl : other = call := Option.some.inj (present.symm.trans there)
        have inside : next < traffic.calls.length := (List.getElem?_eq_some_iff.mp there).1
        obtain ⟨last, reached, course⟩ := inductionHypothesis
          ⟨(other.advance collaborators traffic.engine).2.2,
            traffic.calls.set next (other.advance collaborators traffic.engine).2.1⟩
          (List.getElem?_set_self inside)
        refine ⟨last, reached, ?_⟩
        simp only [Section.of, List.filter_cons, beq_self_eq_true, if_true]
        exact .step next other traffic.engine course
      · obtain ⟨last, reached, course⟩ := inductionHypothesis
          ⟨(other.advance collaborators traffic.engine).2.2,
            traffic.calls.set next (other.advance collaborators traffic.engine).2.1⟩
          ((List.getElem?_set_ne same).trans there)
        refine ⟨last, reached, ?_⟩
        have apart : (next == caller) = false := by simpa using same
        simp only [Section.of, List.filter_cons, apart]
        exact course

end Traffic
end CampusRules
