import CampusRules.Proofs.Json.Equality
import CampusRules.Proofs.Json.Value

/-!
# Places in a value

A place is a way into a value, step by step: to the member under a key or to the item at an index.
Two values correspond where one place leads to something in both.

Structural equality is equality by value together with agreement of the kinds of numbers at every
place: two numbers of one value but of different kinds make the values around them differ, however
deep they are. The induction is over the left value, and a step further into it is a step further
into both.
-/

namespace CampusRules.Json

/-- A step into a value. -/
inductive Step where
  | member (key : String)
  | item (index : Nat)
  deriving DecidableEq

/-- The value that a step leads to. -/
def step? (value : Json) : Step → Option Json
  | .member key => value.member? key
  | .item index =>
    match value with
    | .array items => items[index]?
    | _ => none

/-- The value at a place. -/
def at? (value : Json) : (place : List Step) → Option Json
  | [] => some value
  | step :: place => (value.step? step).bind fun inner => inner.at? place

/-- Where all places of two values are related, so are those behind a step into both. -/
theorem rel_step? {related : Json → Json → Prop} {before after : Json}
    (places : ∀ place, Option.Rel related (before.at? place) (after.at? place)) (step : Step) :
    Option.Rel (fun inner other => ∀ place, Option.Rel related (inner.at? place) (other.at? place))
      (before.step? step) (after.step? step) := by
  have here := places [step]
  have behind (place : List Step) := places (step :: place)
  simp only [at?] at here behind
  cases found : before.step? step with
  | none =>
    cases there : after.step? step with
    | none => exact .none
    | some other => simp [found, there] at here
  | some inner =>
    cases there : after.step? step with
    | none => simp [found, there] at here
    | some other =>
      refine .some fun place => ?_
      simpa only [found, there, Option.bind_some] using behind place

/-- Two values are not both numbers, or they are the same number of one kind. -/
def NumbersAlike (left right : Json) : Prop :=
  ∀ first second, left = .number first → right = .number second → first.same second = true

/-- What two values hold at one place are not both numbers, or the same number of one kind. -/
def EncodedAlike (left right : Json) : Prop :=
  ∀ place inner other, left.at? place = some inner → right.at? place = some other →
    NumbersAlike inner other

/-- Two values are encoded alike if they are so as numbers, and behind every step. -/
theorem encodedAlike_iff {left right : Json} :
    EncodedAlike left right ↔ NumbersAlike left right ∧
      ∀ step inner other, left.step? step = some inner → right.step? step = some other →
        EncodedAlike inner other := by
  constructor
  · intro alike
    refine ⟨alike [] left right rfl rfl, ?_⟩
    intro step inner other here there place
    have behind := alike (step :: place)
    rwa [at?, at?, here, there, Option.bind_some, Option.bind_some] at behind
  · rintro ⟨here, behind⟩ place inner other left_leads right_leads
    cases place with
    | nil =>
      cases left_leads
      cases right_leads
      exact here
    | cons step place =>
      obtain ⟨next, found, left_leads⟩ := Option.bind_eq_some_iff.mp left_leads
      obtain ⟨after, there, right_leads⟩ := Option.bind_eq_some_iff.mp right_leads
      exact behind step next after found there place inner other left_leads right_leads

/-- Arrays are encoded alike if their items are. -/
theorem encodedAlike_array {lefts rights : List Json} :
    EncodedAlike (.array lefts) (.array rights) ↔
      ∀ (index : Nat) (left right : Json), lefts[index]? = some left →
        rights[index]? = some right → EncodedAlike left right := by
  rw [encodedAlike_iff]
  constructor
  · rintro ⟨_, behind⟩ index left right
    exact behind (.item index) left right
  · refine fun items => ⟨fun _ _ other => (by cases other), ?_⟩
    rintro (key | index) left right here there
    · cases here
    · exact items index left right here there

/-- Objects are encoded alike if the values under each key are. -/
theorem encodedAlike_object {lefts rights : Members} :
    EncodedAlike (.object lefts) (.object rights) ↔
      ∀ key left right, lefts.lookup key = some left → rights.lookup key = some right →
        EncodedAlike left right := by
  rw [encodedAlike_iff]
  constructor
  · rintro ⟨_, behind⟩ key left right
    exact behind (.member key) left right
  · refine fun members => ⟨fun _ _ other => (by cases other), ?_⟩
    rintro (key | index) left right here there
    · exact members key left right here there
    · cases here

/-- A value is encoded like itself. -/
theorem encodedAlike_refl (value : Json) : EncodedAlike value value := by
  rintro place _ _ here there first second rfl rfl
  obtain rfl : first = second := by simpa [here] using there
  exact first.same_refl

/-- Numbers are encoded alike if they are the same within one kind. -/
theorem encodedAlike_number {first second : Number} :
    EncodedAlike (.number first) (.number second) ↔ first.same second = true := by
  constructor
  · intro alike
    exact alike [] _ _ rfl rfl first second rfl rfl
  · intro alike
    refine encodedAlike_iff.mpr ⟨?_, ?_⟩
    · rintro _ _ ⟨⟩ ⟨⟩
      exact alike
    · rintro (key | index) _ _ here _ <;> cases here

/-- A relation between two optional values splits where it does for the values. -/
theorem rel_iff_and {both one other : Json → Json → Prop} {left right : Option Json}
    (split : ∀ first second, left = some first → right = some second →
      (both first second ↔ one first second ∧ other first second)) :
    Option.Rel both left right ↔ Option.Rel one left right ∧
      ∀ first second, left = some first → right = some second → other first second := by
  cases left <;> cases right <;> simp_all

/-- What follows for the two values that are there follows for optional values. -/
theorem rel_imp {related further : Json → Json → Prop} {left right : Option Json}
    (imp : ∀ first second, left = some first → related first second → further first second)
    (rel : Option.Rel related left right) : Option.Rel further left right := by
  cases rel with
  | none => exact .none
  | some here => exact .some (imp _ _ rfl here)

/-- A value that is found under a key is that of a member. -/
theorem mem_of_lookup {key : String} {value : Json} {members : Members}
    (found : members.lookup key = some value) : (key, value) ∈ members := by
  obtain ⟨before, behind, rfl, _⟩ := List.lookup_eq_some_iff.mp found
  exact List.mem_append_right _ List.mem_cons_self

/-- Values are the same exactly if they are equal by value, with numbers of the same kind at every
place. -/
theorem sameBy_same_iff {left right : Json} (ordered : left.Ordered)
    (alsoOrdered : right.Ordered) :
    left.sameBy Number.same right = true ↔
      left.sameBy Number.equals right = true ∧ EncodedAlike left right := by
  induction left using induction generalizing right with
  | null =>
    rw [null_sameBy_iff, null_sameBy_iff, iff_self_and]
    rintro rfl
    exact encodedAlike_refl .null
  | bool value =>
    rw [bool_sameBy_iff, bool_sameBy_iff, iff_self_and]
    rintro rfl
    exact encodedAlike_refl (.bool value)
  | string value =>
    rw [string_sameBy_iff, string_sameBy_iff, iff_self_and]
    rintro rfl
    exact encodedAlike_refl (.string value)
  | number value =>
    simp only [number_sameBy_iff]
    constructor
    · rintro ⟨other, rfl, alike⟩
      exact ⟨⟨other, rfl, Number.equals_of_same alike⟩, encodedAlike_number.mpr alike⟩
    · rintro ⟨⟨other, rfl, _⟩, alike⟩
      exact ⟨other, rfl, encodedAlike_number.mp alike⟩
  | array items inductionHypothesis =>
    cases right with
    | array others =>
      rw [arrays_sameBy_iff, arrays_sameBy_iff, encodedAlike_array, ← forall_and]
      refine forall_congr' fun index => rel_iff_and fun first second here there => ?_
      have inside := List.mem_of_getElem? here
      exact inductionHypothesis first inside (orderedItems_iff.mp ordered first inside)
        (orderedItems_iff.mp alsoOrdered second (List.mem_of_getElem? there))
    | null | bool | number | string | object => simp [sameBy]
  | object members inductionHypothesis =>
    cases right with
    | object others =>
      rw [objects_sameBy_iff ordered.1 alsoOrdered.1, objects_sameBy_iff ordered.1 alsoOrdered.1,
        encodedAlike_object, ← forall_and]
      refine forall_congr' fun key => rel_iff_and fun first second here there => ?_
      have inside := mem_of_lookup here
      exact inductionHypothesis (key, first) inside (orderedMembers_iff.mp ordered.2 _ inside)
        (orderedMembers_iff.mp alsoOrdered.2 _ (mem_of_lookup there))
    | null | bool | number | string | array => simp [sameBy]

end CampusRules.Json
