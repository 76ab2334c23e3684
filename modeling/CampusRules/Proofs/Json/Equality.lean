import CampusRules.Json.Basic
import CampusRules.Proofs.Number.Comparison
import Mathlib.Data.List.Forall2

/-!
# Structural equality under a rule for numbers

Two values are equal in structure when they are of one kind, with the same length or the same keys,
and equal in structure item by item and member by member. What this leaves open is when two numbers
are equal. `sameBy` takes the rule for it as a parameter: within one kind only (`Number.same`), or
by value (`Number.equals`). It is reflexive, symmetric and transitive if the rule is.

An array is compared index by index and an object, whose keys are in order, key by key.
-/

namespace CampusRules

namespace Number

/-- Equality by value, whatever the kinds of the numbers. -/
def equals (left right : Number) : Bool := left.quantity.equals right.quantity

/-- A number stands for a quantity. -/
theorem quantity_ne_undefined (number : Number) : number.quantity ≠ .undefined := by
  cases number with
  | integer value fits => exact Quantity.ofUnits_ne_undefined _ _ _
  | float value => nofun

/-- A number is equal to itself. -/
theorem equals_refl (number : Number) : number.equals number = true :=
  (Quantity.equals_self_iff _).mpr number.quantity_ne_undefined

/-- A number is the same as itself. -/
theorem same_refl (number : Number) : number.same number = true := by
  cases number <;> simp [same, Binary64.equals]

/-- Numbers that are the same are so from either side. -/
theorem same_symm {left right : Number} (alike : left.same right = true) :
    right.same left = true := by
  cases left <;> cases right <;> simp_all [same, Binary64.equals_iff]

/-- Numbers that are the same as one are the same. -/
theorem same_trans {first second third : Number} (left : first.same second = true)
    (right : second.same third = true) : first.same third = true := by
  cases first <;> cases second <;> cases third <;> simp_all [same, Binary64.equals_iff]

/-- Numbers of one kind that are the same are equal by value. -/
theorem equals_of_same {left right : Number} (alike : left.same right = true) :
    left.equals right = true := by
  cases left with
  | integer value fits =>
    cases right with
    | integer other alsoFits =>
      obtain rfl : value = other := by simpa [same] using alike
      exact equals_refl (.integer value fits)
    | float other => cases alike
  | float value =>
    cases right with
    | integer other fits => cases alike
    | float other => exact alike

end Number

namespace Json

/-- What holds of a value whenever it holds of the values right inside it holds of every value. -/
@[elab_as_elim]
theorem induction {motive : Json → Prop} (null : motive .null)
    (bool : ∀ value, motive (.bool value)) (number : ∀ value, motive (.number value))
    (string : ∀ value, motive (.string value))
    (array : ∀ items, (∀ item ∈ items, motive item) → motive (.array items))
    (object : ∀ members : Members, (∀ member ∈ members, motive member.2) →
      motive (.object members)) (value : Json) : motive value :=
  match value with
  | .null => null
  | .bool value => bool value
  | .number value => number value
  | .string value => string value
  | .array items => array items fun item _ => induction null bool number string array object item
  | .object members => object members fun member _ =>
    induction null bool number string array object member.2
termination_by sizeOf value
decreasing_by
  · rename_i present
    have smaller := List.sizeOf_lt_of_mem present
    simp only [Json.array.sizeOf_spec]
    omega
  · rename_i present
    have smaller := List.sizeOf_lt_of_mem present
    cases member
    simp only [Json.object.sizeOf_spec, Prod.mk.sizeOf_spec] at smaller ⊢
    omega

mutual

/-- Structural equality with a rule for numbers. -/
@[simp]
def sameBy (rule : Number → Number → Bool) : Json → Json → Bool
  | .null, .null => true
  | .bool left, .bool right => left == right
  | .number left, .number right => rule left right
  | .string left, .string right => left == right
  | .array left, .array right => sameItemsBy rule left right
  | .object left, .object right => sameMembersBy rule left right
  | _, _ => false
termination_by structural left => left

/-- Structural equality of two lists of values, with a rule for numbers. -/
@[simp]
def sameItemsBy (rule : Number → Number → Bool) : List Json → List Json → Bool
  | [], [] => true
  | left :: lefts, right :: rights => left.sameBy rule right && sameItemsBy rule lefts rights
  | _, _ => false
termination_by structural left => left

/-- Structural equality of two lists of members, with a rule for numbers. -/
@[simp]
def sameMembersBy (rule : Number → Number → Bool) : Members → Members → Bool
  | [], [] => true
  | (leftKey, left) :: lefts, (rightKey, right) :: rights =>
    leftKey == rightKey && left.sameBy rule right && sameMembersBy rule lefts rights
  | _, _ => false
termination_by structural left => left

end

mutual

/-- Structural equality is that under the rule that numbers of one kind compare by value and
numbers of different kinds never agree. -/
theorem sameBy_same : (left right : Json) → left.sameBy Number.same right = left.same right
  | .array lefts, .array rights => sameItemsBy_same lefts rights
  | .object lefts, .object rights => sameMembersBy_same lefts rights
  | .null, right | .bool _, right | .number _, right | .string _, right => by
    cases right <;> rfl
  | .array _, .null | .array _, .bool _ | .array _, .number _ | .array _, .string _
  | .array _, .object _ | .object _, .null | .object _, .bool _ | .object _, .number _
  | .object _, .string _ | .object _, .array _ => rfl
termination_by structural left => left

/-- Lists of values are compared alike. -/
theorem sameItemsBy_same : (lefts rights : List Json) →
    sameItemsBy Number.same lefts rights = sameItems lefts rights
  | [], [] | [], _ :: _ | _ :: _, [] => rfl
  | left :: lefts, right :: rights => by
    rw [sameItemsBy, sameItems, sameBy_same left right, sameItemsBy_same lefts rights]
termination_by structural lefts => lefts

/-- Lists of members are compared alike. -/
theorem sameMembersBy_same : (lefts rights : Members) →
    sameMembersBy Number.same lefts rights = sameMembers lefts rights
  | [], [] | [], _ :: _ | _ :: _, [] => rfl
  | (_, left) :: lefts, (_, right) :: rights => by
    rw [sameMembersBy, sameMembers, sameBy_same left right, sameMembersBy_same lefts rights]
termination_by structural lefts => lefts

end

variable {rule : Number → Number → Bool}

/-- Lists of values are the same item by item. -/
theorem sameItemsBy_iff (lefts rights : List Json) :
    sameItemsBy rule lefts rights = true ↔
      List.Forall₂ (fun left right => left.sameBy rule right = true) lefts rights := by
  induction lefts generalizing rights with
  | nil => cases rights <;> simp
  | cons left lefts inductionHypothesis =>
    cases rights with
    | nil => simp
    | cons right rights => simp [inductionHypothesis]

/-- Lists of members are the same key by key and value by value. -/
theorem sameMembersBy_iff (lefts rights : Members) :
    sameMembersBy rule lefts rights = true ↔
      List.Forall₂ (fun left right => left.1 = right.1 ∧ left.2.sameBy rule right.2 = true)
        lefts rights := by
  induction lefts generalizing rights with
  | nil => cases rights <;> simp
  | cons left lefts inductionHypothesis =>
    cases rights with
    | nil => simp
    | cons right rights => simp [inductionHypothesis]

/-- What is the same as `null` is `null`. -/
theorem null_sameBy_iff {right : Json} : Json.null.sameBy rule right = true ↔ right = .null := by
  cases right <;> simp

/-- What is the same as a truth value is that truth value. -/
theorem bool_sameBy_iff {value : Bool} {right : Json} :
    (Json.bool value).sameBy rule right = true ↔ right = .bool value := by
  cases right with
  | bool other =>
    rw [sameBy, beq_iff_eq, bool.injEq]
    exact eq_comm
  | null | number | string | array | object => simp

/-- What is the same as a text is that text. -/
theorem string_sameBy_iff {value : String} {right : Json} :
    (Json.string value).sameBy rule right = true ↔ right = .string value := by
  cases right with
  | string other =>
    rw [sameBy, beq_iff_eq, string.injEq]
    exact eq_comm
  | null | bool | number | array | object => simp

/-- What is the same as a number is a number. -/
theorem number_sameBy_iff {value : Number} {right : Json} :
    (Json.number value).sameBy rule right = true ↔
      ∃ other, right = .number other ∧ rule value other = true := by
  cases right <;> simp

/-- What is the same as an array is an array that is the same item by item. -/
theorem array_sameBy_iff {items : List Json} {right : Json} :
    (Json.array items).sameBy rule right = true ↔
      ∃ others, right = .array others ∧
        List.Forall₂ (fun left right => left.sameBy rule right = true) items others := by
  cases right <;> simp [sameItemsBy_iff]

/-- What is the same as an object is an object that is the same member by member. -/
theorem object_sameBy_iff {members : Members} {right : Json} :
    (Json.object members).sameBy rule right = true ↔
      ∃ others, right = .object others ∧
        List.Forall₂ (fun left right => left.1 = right.1 ∧ left.2.sameBy rule right.2 = true)
          members others := by
  cases right <;> simp [sameMembersBy_iff]

/-- Every value is the same as itself if every number is. -/
theorem sameBy_refl (refl : ∀ number, rule number number = true) (value : Json) :
    value.sameBy rule value = true := by
  induction value using induction with
  | null => rfl
  | bool value => exact beq_self_eq_true value
  | number value => exact refl value
  | string value => exact beq_self_eq_true value
  | array items inductionHypothesis =>
    exact array_sameBy_iff.mpr ⟨items, rfl, List.forall₂_same.mpr inductionHypothesis⟩
  | object members inductionHypothesis =>
    refine object_sameBy_iff.mpr ⟨members, rfl, List.forall₂_same.mpr ?_⟩
    exact fun member present => ⟨rfl, inductionHypothesis member present⟩

/-- What follows for the items of the first list follows item by item. -/
theorem forall₂_imp_of_mem {α β : Type} {related further : α → β → Prop} {lefts : List α}
    {rights : List β}
    (imp : ∀ left ∈ lefts, ∀ {right}, related left right → further left right)
    (paired : List.Forall₂ related lefts rights) : List.Forall₂ further lefts rights := by
  have both := (List.forall₂_and_left _ _).mpr ⟨imp, paired⟩
  exact both.imp fun _ _ pair => pair.1 pair.2

/-- Values that are the same are so from either side if numbers are. -/
theorem sameBy_symm (symm : ∀ {left right}, rule left right = true → rule right left = true)
    {left right : Json} (alike : left.sameBy rule right = true) :
    right.sameBy rule left = true := by
  induction left using induction generalizing right with
  | null =>
    obtain rfl := null_sameBy_iff.mp alike
    exact alike
  | bool value =>
    obtain rfl := bool_sameBy_iff.mp alike
    exact alike
  | string value =>
    obtain rfl := string_sameBy_iff.mp alike
    exact alike
  | number value =>
    obtain ⟨other, rfl, equal⟩ := number_sameBy_iff.mp alike
    exact symm equal
  | array items inductionHypothesis =>
    obtain ⟨others, rfl, equal⟩ := array_sameBy_iff.mp alike
    have paired := forall₂_imp_of_mem inductionHypothesis equal
    exact array_sameBy_iff.mpr ⟨items, rfl, paired.flip⟩
  | object members inductionHypothesis =>
    obtain ⟨others, rfl, equal⟩ := object_sameBy_iff.mp alike
    refine object_sameBy_iff.mpr ⟨members, rfl, (forall₂_imp_of_mem ?_ equal).flip⟩
    exact fun member present => fun pair => ⟨pair.1.symm, inductionHypothesis member present pair.2⟩

/-- A relation between lists, item by item, is transitive if it is for the items of the first. -/
theorem forall₂_trans {α : Type} {related : α → α → Prop} {firsts seconds thirds : List α}
    (trans : ∀ first ∈ firsts, ∀ {second third}, related first second → related second third →
      related first third)
    (left : List.Forall₂ related firsts seconds) (right : List.Forall₂ related seconds thirds) :
    List.Forall₂ related firsts thirds := by
  induction left generalizing thirds with
  | nil => exact right
  | cons here _ inductionHypothesis =>
    obtain _ | ⟨there, behind⟩ := right
    refine .cons (trans _ List.mem_cons_self here there) (inductionHypothesis ?_ behind)
    exact fun first present => trans first (List.mem_cons_of_mem _ present)

/-- Values that are the same as one are the same if numbers are. -/
theorem sameBy_trans
    (trans : ∀ {first second third}, rule first second = true → rule second third = true →
      rule first third = true)
    {first second third : Json} (left : first.sameBy rule second = true)
    (right : second.sameBy rule third = true) : first.sameBy rule third = true := by
  induction first using induction generalizing second third with
  | null =>
    obtain rfl := null_sameBy_iff.mp left
    exact right
  | bool value =>
    obtain rfl := bool_sameBy_iff.mp left
    exact right
  | string value =>
    obtain rfl := string_sameBy_iff.mp left
    exact right
  | number value =>
    obtain ⟨other, rfl, here⟩ := number_sameBy_iff.mp left
    obtain ⟨another, rfl, there⟩ := number_sameBy_iff.mp right
    exact trans here there
  | array items inductionHypothesis =>
    obtain ⟨others, rfl, here⟩ := array_sameBy_iff.mp left
    obtain ⟨more, rfl, there⟩ := array_sameBy_iff.mp right
    exact array_sameBy_iff.mpr ⟨more, rfl, forall₂_trans inductionHypothesis here there⟩
  | object members inductionHypothesis =>
    obtain ⟨others, rfl, here⟩ := object_sameBy_iff.mp left
    obtain ⟨more, rfl, there⟩ := object_sameBy_iff.mp right
    refine object_sameBy_iff.mpr ⟨more, rfl, forall₂_trans ?_ here there⟩
    exact fun member present => fun before behind =>
      ⟨before.1.trans behind.1, inductionHypothesis member present before.2 behind.2⟩

/-- Lists are related item by item if the items at each index are, or are missing from both. -/
theorem forall₂_iff_getElem? {α : Type} {related : α → α → Prop} {lefts rights : List α} :
    List.Forall₂ related lefts rights ↔
      ∀ index : Nat, Option.Rel related lefts[index]? rights[index]? := by
  constructor
  · intro paired
    induction paired with
    | nil => exact fun _ => .none
    | cons here _ inductionHypothesis =>
      rintro (_ | index)
      · exact .some here
      · exact inductionHypothesis index
  · intro each
    induction lefts generalizing rights with
    | nil =>
      cases rights with
      | nil => exact .nil
      | cons right rights => cases each 0
    | cons left lefts inductionHypothesis =>
      cases rights with
      | nil => cases each 0
      | cons right rights =>
        obtain ⟨here⟩ := each 0
        exact .cons here (inductionHypothesis fun index => each (index + 1))

/-- A key that comes before all keys is absent. -/
theorem lookup_eq_none_of_lt {key : String} {members : Members}
    (before : ∀ other ∈ members.map Prod.fst, key < other) : members.lookup key = none := by
  rw [List.lookup_eq_none_iff]
  intro member present
  have different : key ≠ member.1 := String.ne_of_lt (before _ (List.mem_map_of_mem present))
  simpa using different

/-- Where the same keys are present, the first key of one list of members is not before that of
the other. -/
theorem not_lt_of_present {key other : String} {left right : Json} {lefts rights : Members}
    (sorted : (((other, right) :: rights).map Prod.fst).Pairwise (· < ·))
    (keys : ∀ name, (List.lookup name ((key, left) :: lefts)).isSome =
      (List.lookup name ((other, right) :: rights)).isSome) : ¬key < other := by
  intro before
  have absent : List.lookup key ((other, right) :: rights) = none := by
    refine lookup_eq_none_of_lt fun later there => ?_
    rcases List.mem_cons.mp there with rfl | behind
    · exact before
    · exact String.lt_trans before ((List.pairwise_cons.mp sorted).1 later behind)
  have present := keys key
  simp [absent] at present

/-- Of two related optional values both are present or none. -/
theorem isSome_eq_of_rel {α β : Type} {related : α → β → Prop} {left : Option α}
    {right : Option β} (rel : Option.Rel related left right) : left.isSome = right.isSome := by
  cases rel <;> rfl

/-- Members whose keys are in order are related one by one if those under each key are. -/
theorem forall₂_iff_lookup {related : Json → Json → Prop} {lefts rights : Members}
    (sorted : (lefts.map Prod.fst).Pairwise (· < ·))
    (alsoSorted : (rights.map Prod.fst).Pairwise (· < ·)) :
    List.Forall₂ (fun left right => left.1 = right.1 ∧ related left.2 right.2) lefts rights ↔
      ∀ key, Option.Rel related (lefts.lookup key) (rights.lookup key) := by
  constructor
  · intro paired key
    clear sorted alsoSorted
    induction paired with
    | nil => exact .none
    | @cons left right _ _ here _ inductionHypothesis =>
      obtain ⟨name, value⟩ := left
      obtain ⟨_, other⟩ := right
      obtain ⟨rfl, alike⟩ := here
      by_cases same : key = name
      · rw [same, List.lookup_cons_self, List.lookup_cons_self]
        exact .some alike
      · simpa only [List.lookup_cons, beq_false_of_ne same] using inductionHypothesis
  · intro each
    have keys (name : String) := isSome_eq_of_rel (each name)
    induction lefts generalizing rights with
    | nil =>
      cases rights with
      | nil => exact .nil
      | cons right rights => simpa using keys right.1
    | cons left lefts inductionHypothesis =>
      cases rights with
      | nil => simpa using keys left.1
      | cons right rights =>
        obtain ⟨key, value⟩ := left
        obtain ⟨other, present⟩ := right
        -- The first key of either list is the least of all keys, and these are the same.
        obtain rfl : key = other :=
          String.le_antisymm (not_lt_of_present sorted fun name => (keys name).symm)
            (not_lt_of_present alsoSorted keys)
        obtain ⟨before, sortedRest⟩ := List.pairwise_cons.mp sorted
        obtain ⟨alsoBefore, alsoSortedRest⟩ := List.pairwise_cons.mp alsoSorted
        have here := each key
        rw [List.lookup_cons_self, List.lookup_cons_self] at here
        obtain ⟨alike⟩ := here
        have behind (name : String) :
            Option.Rel related (lefts.lookup name) (rights.lookup name) := by
          by_cases same : name = key
          · rw [same, lookup_eq_none_of_lt before, lookup_eq_none_of_lt alsoBefore]
            exact .none
          · simpa only [List.lookup_cons, beq_false_of_ne same] using each name
        exact .cons ⟨rfl, alike⟩ (inductionHypothesis sortedRest alsoSortedRest behind
          fun name => isSome_eq_of_rel (behind name))

/-- Arrays are the same index by index. -/
theorem arrays_sameBy_iff {lefts rights : List Json} :
    (Json.array lefts).sameBy rule (.array rights) = true ↔
      ∀ index : Nat, Option.Rel (fun left right => left.sameBy rule right = true)
        lefts[index]? rights[index]? := by
  rw [sameBy, sameItemsBy_iff, forall₂_iff_getElem?]

/-- Objects are the same key by key. -/
theorem objects_sameBy_iff {lefts rights : Members}
    (sorted : (lefts.map Prod.fst).Pairwise (· < ·))
    (alsoSorted : (rights.map Prod.fst).Pairwise (· < ·)) :
    (Json.object lefts).sameBy rule (.object rights) = true ↔
      ∀ key, Option.Rel (fun left right => left.sameBy rule right = true)
        (lefts.lookup key) (rights.lookup key) := by
  rw [sameBy, sameMembersBy_iff, ← forall₂_iff_lookup sorted alsoSorted]

end Json
end CampusRules
