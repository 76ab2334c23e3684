import CampusRules.Engine.Event
import CampusRules.Proofs.Registry.WellFormed

/-!
# What events tell of a registry

Whoever knows how an identifier stands, that is whether a rule has it and how often this one was
executed, can go on from there by events alone: one that the rule was created, one that it was
removed, and one for each execution, with its number. The other events do not bear on it.

An observer who reads events in the order in which they happened never meets one that makes no
sense, and knows in the end how the identifier stands. So the last creation or removal tells whether
there is a rule, and executions are numbered from one after each creation.
-/

namespace CampusRules

open Registry

/-- How an identifier stands: how often the rule that has it was executed, if there is one. -/
def Registry.standing (id : String) (rules : List Rule) : Option UInt64 :=
  (rules.find? (·.id == id)).map Rule.executionCount

namespace Event

/-- Whether an event bears on how its identifier stands. -/
def bears : Event → Bool
  | created _ | removed _ | executed _ _ => true
  | triggered _ _ | skipped _ | failed _ _ | updated _ => false

/-- Whether an event bears on how an identifier stands. -/
def bearsOn (id : String) (event : Event) : Bool := event.bears && event.id == id

/-- How an identifier stands after an event that bears on it, unless the event makes no sense. Where
there is no rule, an execution has no number; it is told as zero. -/
def advance? : (standing : Option UInt64) → Event → Option (Option UInt64)
  | none, created _ => some (some 0)
  | some _, removed _ => some none
  | some count, executed _ number => if number = count + 1 then some (some number) else none
  | none, executed _ number => if number = 0 then some none else none
  | _, _ => none

/-- How an identifier stands after an event, for whoever knows how it stood before. -/
def learn? (id : String) (standing : Option UInt64) (event : Event) : Option (Option UInt64) :=
  if event.bearsOn id then advance? standing event else some standing

/-- How an identifier stands after events in a row. -/
def learnAll? (id : String) (standing : Option UInt64) (events : List Event) :
    Option (Option UInt64) :=
  events.foldlM (learn? id) standing

/-- Whether an event tells that an identifier is registered from then on, or that it is not. -/
def registers? (id : String) : Event → Option Bool
  | created other => if other = id then some true else none
  | removed other => if other = id then some false else none
  | _ => none

/-- What the last event about it tells of whether an identifier is registered. -/
def lastRegisters? (id : String) (events : List Event) : Option Bool :=
  (events.filterMap (registers? id)).getLast?

/-- The number of an execution of the rule with an identifier. -/
def number? (id : String) : Event → Option UInt64
  | executed other number => if other = id then some number else none
  | _ => none

/-- The numbers of the executions of the rule with an identifier, in the order of the events. -/
def numbers (id : String) (events : List Event) : List UInt64 := events.filterMap (number? id)

variable {id : String} {known after : Option UInt64} {events : List Event}

/-- An event about another rule changes nothing. -/
theorem learn?_of_ne (event : Event) (other : event.id ≠ id) (known : Option UInt64) :
    learn? id known event = some known := by
  have aside : event.bearsOn id = false := by simp [bearsOn, other]
  simp [learn?, aside]

/-- An event that bears on its rule advances what is known of it. -/
theorem learn?_self {event : Event} (bearing : event.bears = true) (known : Option UInt64) :
    learn? event.id known event = advance? known event := by
  simp [learn?, bearsOn, bearing]

/-- What is learned in a row is learned one after the other. -/
theorem learnAll?_append (id : String) (standing : Option UInt64) (first second : List Event) :
    learnAll? id standing (first ++ second) =
      (learnAll? id standing first).bind (learnAll? id · second) :=
  List.foldlM_append

/-- What is learned first decides how the rest is learned. -/
theorem learnAll?_cons (id : String) (standing : Option UInt64) (event : Event)
    (rest : List Event) :
    learnAll? id standing (event :: rest) =
      (learn? id standing event).bind (learnAll? id · rest) :=
  List.foldlM_cons

/-- Only the events that bear on an identifier matter for it. -/
theorem learnAll?_filter (id : String) (standing : Option UInt64) (events : List Event) :
    learnAll? id standing (events.filter (bearsOn id)) = learnAll? id standing events := by
  induction events generalizing standing with
  | nil => rfl
  | cons event rest inductionHypothesis =>
    rw [learnAll?_cons]
    by_cases bearing : event.bearsOn id = true
    · rw [List.filter_cons_of_pos bearing, learnAll?_cons]
      congr 1
      exact funext fun middle => inductionHypothesis middle
    · rw [List.filter_cons_of_neg bearing, inductionHypothesis, learn?, if_neg bearing]
      rfl

/-- The ways in which an event makes sense to whoever knows how an identifier stands. -/
inductive Learned (id : String) : Option UInt64 → Event → Option UInt64 → Prop where
  | aside {known : Option UInt64} {event : Event} (other : event.bearsOn id = false) :
      Learned id known event known
  | creation : Learned id none (created id) (some 0)
  | removal (count : UInt64) : Learned id (some count) (removed id) none
  | execution (count : UInt64) :
      Learned id (some count) (executed id (count + 1)) (some (count + 1))
  | late : Learned id none (executed id 0) none

/-- What is learned makes sense in one of these ways. -/
theorem learned_of_learn? {event : Event} (learns : learn? id known event = some after) :
    Learned id known event after := by
  unfold learn? at learns
  split at learns
  · rename_i bearing
    obtain ⟨bears, named⟩ := Bool.and_eq_true_iff.mp bearing
    obtain rfl : event.id = id := eq_of_beq named
    cases event with
    | triggered | skipped | failed | updated => cases bears
    | created other =>
      cases known <;> cases learns
      exact .creation
    | removed other =>
      cases known <;> cases learns
      exact .removal _
    | executed other number =>
      cases known with
      | none =>
        by_cases zero : number = 0
        · subst zero
          cases learns
          exact .late
        · simp [advance?, zero] at learns
      | some count =>
        by_cases next : number = count + 1
        · subst next
          simp only [advance?, if_true, Option.some.injEq] at learns
          subst learns
          exact .execution count
        · simp [advance?, next] at learns
  · rename_i aside
    cases learns
    exact .aside (Bool.eq_false_iff.mpr aside)

/-- Events in a row are learned one by one. -/
theorem learned_of_cons {event : Event} {rest : List Event}
    (learns : learnAll? id known (event :: rest) = some after) :
    ∃ middle, Learned id known event middle ∧ learnAll? id middle rest = some after := by
  rw [learnAll?_cons] at learns
  obtain ⟨middle, first, others⟩ := Option.bind_eq_some_iff.mp learns
  exact ⟨middle, learned_of_learn? first, others⟩

/-- What does not bear on an identifier tells nothing of whether it is registered. -/
theorem registers?_of_aside {event : Event} (other : event.bearsOn id = false) :
    registers? id event = none := by
  cases event <;> simp_all [bearsOn, bears, registers?, Event.id]

/-- What does not bear on an identifier numbers no execution. -/
theorem number?_of_aside {event : Event} (other : event.bearsOn id = false) :
    number? id event = none := by
  cases event <;> simp_all [bearsOn, bears, number?, Event.id]

/-- The last creation or removal tells whether the identifier is registered. Where there is none,
this is as it was. -/
theorem registered_of_learnAll? (learns : learnAll? id known events = some after) :
    (lastRegisters? id events).getD known.isSome = after.isSome := by
  induction events generalizing known with
  | nil =>
    cases learns
    rfl
  | cons event rest inductionHypothesis =>
    obtain ⟨middle, first, others⟩ := learned_of_cons learns
    have later := inductionHypothesis others
    unfold lastRegisters? at later ⊢
    cases first with
    | aside other => rwa [List.filterMap_cons_none (registers?_of_aside other)]
    | creation =>
      have told : registers? id (created id) = some true := if_pos rfl
      rwa [List.filterMap_cons_some told, List.getLast?_cons]
    | removal =>
      have told : registers? id (removed id) = some false := if_pos rfl
      rwa [List.filterMap_cons_some told, List.getLast?_cons]
    | execution | late => exact later

/-- While a rule is not removed, its executions are numbered in a row. -/
theorem numbers_of_learnAll? {count : UInt64}
    (learns : learnAll? id (some count) events = some after) (stays : removed id ∉ events)
    {index : Nat} {number : UInt64} (told : (numbers id events)[index]? = some number) :
    number = count + UInt64.ofNat (index + 1) := by
  induction events generalizing count index with
  | nil => cases told
  | cons event rest inductionHypothesis =>
    obtain ⟨here, others⟩ := not_or.mp (mt List.mem_cons.mpr stays)
    obtain ⟨middle, first, learned⟩ := learned_of_cons learns
    unfold numbers at told inductionHypothesis
    cases first with
    | aside other =>
      rw [List.filterMap_cons_none (number?_of_aside other)] at told
      exact inductionHypothesis learned others told
    | removal => exact absurd rfl here
    | execution =>
      have next : number? id (executed id (count + 1)) = some (count + 1) := if_pos rfl
      rw [List.filterMap_cons_some next] at told
      cases index with
      | zero =>
        cases told
        rfl
      | succ index =>
        have later := inductionHypothesis learned others told
        rw [later, UInt64.add_assoc, UInt64.ofNat_add (index + 1) 1]
        congr 1
        exact UInt64.add_comm _ _

/-- Creations and removals that make sense balance, whatever else is told and in whatever order. -/
theorem balance_of_learnAll? (learns : learnAll? id known events = some after) :
    known.isSome.toNat + events.count (created id) =
      after.isSome.toNat + events.count (removed id) := by
  induction events generalizing known with
  | nil =>
    cases learns
    rfl
  | cons event rest inductionHypothesis =>
    obtain ⟨middle, first, learned⟩ := learned_of_cons learns
    have later := inductionHypothesis learned
    cases first with
    | aside other =>
      have neither : event ≠ created id ∧ event ≠ removed id := by
        constructor <;> rintro rfl <;> simp [bearsOn, bears, Event.id] at other
      rwa [List.count_cons_of_ne neither.1, List.count_cons_of_ne neither.2]
    | creation | removal | execution | late =>
      simp at later ⊢
      omega

/-- What events tell of an identifier that a registry and a later one show. The last creation or
removal tells whether it is registered then, and while it is not removed again after a creation,
executions are numbered from one. So an observer knows how the identifier stands. -/
structure Discloses (id : String) (events : List Event) (before after : List Rule) : Prop where
  last : (lastRegisters? id events).getD (standing id before).isSome = (standing id after).isSome
  numbered : ∀ first between behind : List Event,
    events = first ++ created id :: (between ++ behind) → removed id ∉ between →
      ∀ index number, (numbers id between)[index]? = some number →
        number = UInt64.ofNat (index + 1)
  learned : learnAll? id (standing id before) events = some (standing id after)

/-- Events that make sense in their order show how an identifier stands. -/
theorem discloses_of_learnAll? {before after : List Rule}
    (learns : learnAll? id (standing id before) events = some (standing id after)) :
    Discloses id events before after := by
  refine ⟨registered_of_learnAll? learns, ?_, learns⟩
  rintro first between behind rfl stays index number told
  rw [learnAll?_append] at learns
  obtain ⟨middle, _, rest⟩ := Option.bind_eq_some_iff.mp learns
  obtain ⟨start, first, others⟩ := learned_of_cons rest
  rw [learnAll?_append] at others
  obtain ⟨last, numbered, _⟩ := Option.bind_eq_some_iff.mp others
  cases first with
  | aside other => simp [bearsOn, bears, Event.id] at other
  | creation => simpa using numbers_of_learnAll? numbered stays told

end Event

namespace Registry

open Event

variable {id : String} {rules : List Rule}

/-- An identifier that no rule has. -/
theorem standing_eq_none : standing id rules = none ↔ ∀ rule ∈ rules, rule.id ≠ id := by
  simp [standing]

/-- A rule that is new and has never run has been created. -/
theorem learn?_append {rule : Rule} (new : ∀ other ∈ rules, other.id ≠ rule.id)
    (unused : rule.executionCount = 0) (id : String) :
    learn? id (standing id rules) (created rule.id) = some (standing id (rules ++ [rule])) := by
  by_cases named : rule.id = id
  · subst named
    have absent : standing rule.id rules = none := standing_eq_none.mpr new
    have present : standing rule.id (rules ++ [rule]) = some 0 := by
      have nothing : rules.find? (·.id == rule.id) = none := by simpa using new
      simp [standing, List.find?_append, nothing, unused]
    rw [absent, present]
    exact learn?_self rfl none
  · rw [learn?_of_ne (created rule.id) named]
    simp [standing, List.find?_append, named]

/-- The rule that is taken out at the position of an identifier has been removed. -/
theorem learn?_eraseIdx (distinct : Distinct rules) {gone : String} {index : Nat}
    (position : rules.findIdx? (·.id == gone) = some index) (id : String) :
    learn? id (standing id rules) (removed gone) =
      some (standing id (rules.eraseIdx index)) := by
  rw [eraseIdx_findIdx rules gone index distinct position]
  by_cases named : gone = id
  · subst named
    obtain ⟨inside, same, _⟩ := List.findIdx?_eq_some_iff_getElem.mp position
    obtain ⟨count, present⟩ : ∃ count, standing gone rules = some count := by
      refine Option.ne_none_iff_exists'.mp fun absent => ?_
      exact standing_eq_none.mp absent rules[index] (List.getElem_mem inside) (eq_of_beq same)
    have absent : standing gone (rules.filter (·.id != gone)) = none :=
      standing_eq_none.mpr fun rule member => by simpa using (List.mem_filter.mp member).2
    rw [present, absent]
    exact learn?_self rfl (some count)
  · rw [learn?_of_ne (removed gone) named, standing, standing, List.find?_filter]
    congr 3
    funext rule
    by_cases present : rule.id = id
    · simp [present, Ne.symm named]
    · simp [present]

/-- How an identifier stands after an adjustment that leaves identifiers alone. -/
theorem standing_adjust (id other : String) (change : Rule → Rule)
    (keeps : ∀ rule, (change rule).id = rule.id) :
    standing id (adjust other change rules) = (rules.find? (·.id == id)).map fun rule =>
      (if id = other then change rule else rule).executionCount := by
  have named (rule : Rule) : (if rule.id = other then change rule else rule).id = rule.id := by
    split
    · exact keeps rule
    · rfl
  rw [standing, adjust, List.find?_map, Option.map_map]
  simp only [Function.comp_def, named]
  refine Option.map_congr fun rule found => ?_
  have own : rule.id = id := by simpa using List.find?_some found
  rw [own]

/-- An adjustment of another rule, or one that leaves its count alone, changes nothing about how an
identifier stands. -/
theorem standing_adjust_of_same {id other : String} (change : Rule → Rule)
    (keeps : ∀ rule, (change rule).id = rule.id)
    (same : id = other → ∀ rule, (change rule).executionCount = rule.executionCount) :
    standing id (adjust other change rules) = standing id rules := by
  rw [standing_adjust id other change keeps]
  refine Option.map_congr fun rule _ => ?_
  split
  · rename_i named
    exact same named rule
  · rfl

/-- An execution that is counted for an identifier is told with the number that it has then. -/
theorem learn?_executed (id ran : String) (time : Instant) :
    let counted := adjust ran (·.executed time) rules
    learn? id (standing id rules) (executed ran ((standing ran counted).getD 0)) =
      some (standing id counted) := by
  intro counted
  by_cases named : ran = id
  · subst named
    have next : standing ran counted = (standing ran rules).map (· + 1) := by
      rw [standing_adjust ran ran (·.executed time) fun _ => rfl, standing, Option.map_map]
      simp [Rule.executed, Function.comp_def]
    rw [next]
    refine (learn?_self rfl _).trans ?_
    cases standing ran rules <;> simp [advance?]
  · rw [learn?_of_ne (executed ran _) named]
    exact congrArg some (standing_adjust_of_same (·.executed time) (fun _ => rfl)
      fun same => absurd same.symm named).symm

/-- Events recount the way from one registry to another: whoever knows how an identifier stands in
the one and reads the events in their order knows how it stands in the other. -/
def Recounts (before : List Rule) (events : List Event) (after : List Rule) : Prop :=
  Distinct before → Distinct after ∧
    ∀ id, learnAll? id (standing id before) events = some (standing id after)

/-- A registry that stays as it is. -/
theorem Recounts.refl (rules : List Rule) : Recounts rules [] rules :=
  fun distinct => ⟨distinct, fun _ => rfl⟩

/-- Events that recount the way to a registry, and then others that recount the way from there. -/
theorem Recounts.trans {first second third : List Rule} {early late : List Event}
    (earlier : Recounts first early second) (later : Recounts second late third) :
    Recounts first (early ++ late) third := by
  intro distinct
  obtain ⟨between, toMiddle⟩ := earlier distinct
  obtain ⟨after, toEnd⟩ := later between
  refine ⟨after, fun id => ?_⟩
  rw [learnAll?_append, toMiddle, Option.bind_some, toEnd]

/-- One event recounts the way to a registry, if it makes sense for every identifier. -/
theorem recounts_of_learn? {before after : List Rule} {event : Event}
    (distinct : Distinct before → Distinct after)
    (learns : Distinct before → ∀ id,
      learn? id (standing id before) event = some (standing id after)) :
    Recounts before [event] after := by
  intro apart
  refine ⟨distinct apart, fun id => ?_⟩
  rw [learnAll?_cons, learns apart id]
  rfl

end Registry
end CampusRules
