import CampusRules.Coercion
import CampusRules.Proofs.Json.Place

/-!
# Equality without coercion

Two numbers are compared by value, and any other two values structurally, also where numbers occur
in them. So strict equality is an equivalence of the values that are present, but it is not carried
from the items of two arrays to the arrays: the items `1` and `1.0` are equal, the arrays of them
are not. It is carried exactly where corresponding numbers are of one kind, and throughout a value
this is what separates it from equality by value at every depth.
-/

namespace CampusRules.Coercion

open Json

/-- Values that are present are strictly equal if they are numbers of one value, or the same. -/
theorem strictEquals_some_iff {left right : Json} :
    strictEquals (some left) (some right) = true ↔
      (∃ first second, left = .number first ∧ right = .number second ∧
        first.equals second = true) ∨
      left.sameBy Number.same right = true := by
  rw [sameBy_same]
  cases left <;> cases right <;> simp [strictEquals, Json.same, Number.equals]
  exact Number.equals_of_same

/-- Of values that are not both numbers, strict equality is being the same. -/
theorem strictEquals_eq_sameBy {left right : Json}
    (other : ∀ first second, left = .number first → right ≠ .number second) :
    strictEquals (some left) (some right) = left.sameBy Number.same right := by
  rw [sameBy_same]
  cases left <;> cases right <;> first | rfl | exact absurd rfl (other _ _ rfl)

/-- Being the same is strict equality, if numbers are of one kind. -/
theorem sameBy_same_iff_strictEquals {left right : Json} :
    left.sameBy Number.same right = true ↔
      strictEquals (some left) (some right) = true ∧ NumbersAlike left right := by
  constructor
  · intro alike
    refine ⟨strictEquals_some_iff.mpr (.inr alike), ?_⟩
    rintro first second rfl rfl
    exact alike
  · rintro ⟨equal, numbers⟩
    rcases strictEquals_some_iff.mp equal with ⟨first, second, rfl, rfl, _⟩ | alike
    · exact numbers first second rfl rfl
    · exact alike

/-- Strict equality is an equivalence of the values that are present. -/
theorem strictEquals_equivalence :
    Equivalence fun left right : Json => strictEquals (some left) (some right) = true where
  refl value := strictEquals_some_iff.mpr (.inr (sameBy_refl Number.same_refl value))
  symm {left right} equal := by
    refine strictEquals_some_iff.mpr ?_
    rcases strictEquals_some_iff.mp equal with ⟨first, second, rfl, rfl, same⟩ | alike
    · exact .inl ⟨second, first, rfl, rfl, Quantity.equals_symm same⟩
    · exact .inr (sameBy_symm Number.same_symm alike)
  trans {first second third} left right := by
    refine strictEquals_some_iff.mpr ?_
    -- A number is the same only as a number, so values that are the same may be numbers, too.
    rcases strictEquals_some_iff.mp left with ⟨one, two, rfl, rfl, here⟩ | here <;>
      rcases strictEquals_some_iff.mp right with ⟨too, three, same, rfl, there⟩ | there
    · cases same
      exact .inl ⟨one, three, rfl, rfl, Quantity.equals_trans here there⟩
    · obtain ⟨three, rfl, alike⟩ := number_sameBy_iff.mp there
      exact .inl ⟨one, three, rfl, rfl, Quantity.equals_trans here (Number.equals_of_same alike)⟩
    · subst same
      obtain ⟨one, rfl, alike⟩ := number_sameBy_iff.mp (sameBy_symm Number.same_symm here)
      have equal := Number.equals_of_same (Number.same_symm alike)
      exact .inl ⟨one, three, rfl, rfl, Quantity.equals_trans equal there⟩
    · exact .inr (sameBy_trans @Number.same_trans here there)

/-- A missing value is strictly equal to nothing. -/
theorem strictEquals_missing (side : Option Json) :
    strictEquals none side = false ∧ strictEquals side none = false := by
  cases side with
  | none => exact ⟨rfl, rfl⟩
  | some value => cases value <;> exact ⟨rfl, rfl⟩

/-- Two arrays are strictly equal exactly if they have one length, their items are strictly equal,
and those that are numbers are of one kind; two objects exactly if they have the same keys, and the
same holds of the values under each key. So at any depth: values are strictly equal exactly if they
are equal by value throughout, and wherever both hold a number inside them these numbers are the
same within one kind. -/
theorem containers_equal_iff_numbers_alike (left right : Json) (ordered : left.Ordered)
    (alsoOrdered : right.Ordered) :
    (∀ lefts rights, left = .array lefts → right = .array rights →
      (strictEquals (some left) (some right) = true ↔
        List.Forall₂ (fun item other =>
          strictEquals (some item) (some other) = true ∧ NumbersAlike item other) lefts rights)) ∧
    (∀ lefts rights, left = .object lefts → right = .object rights →
      (strictEquals (some left) (some right) = true ↔
        ∀ key, Option.Rel (fun value other =>
          strictEquals (some value) (some other) = true ∧ NumbersAlike value other)
          (lefts.lookup key) (rights.lookup key))) ∧
    (strictEquals (some left) (some right) = true ↔
      left.sameBy Number.equals right = true ∧
        ∀ place inner other, place ≠ [] → left.at? place = some inner →
          right.at? place = some other → NumbersAlike inner other) := by
  refine ⟨?_, ?_, ?_⟩
  · rintro lefts rights rfl rfl
    rw [strictEquals_eq_sameBy fun _ _ number => (by cases number), sameBy, sameItemsBy_iff]
    simp only [sameBy_same_iff_strictEquals]
  · rintro lefts rights rfl rfl
    rw [strictEquals_eq_sameBy fun _ _ number => (by cases number),
      objects_sameBy_iff ordered.1 alsoOrdered.1]
    simp only [sameBy_same_iff_strictEquals]
  · by_cases numbers : ∃ first second, left = .number first ∧ right = .number second
    · obtain ⟨first, second, rfl, rfl⟩ := numbers
      refine (and_iff_left ?_).symm
      rintro (_ | ⟨step, place⟩) inner other further here _
      · exact absurd rfl further
      · cases step <;> cases here
    · have other : ∀ first second, left = .number first → right ≠ .number second :=
        fun first second here there => numbers ⟨first, second, here, there⟩
      rw [strictEquals_eq_sameBy other, sameBy_same_iff ordered alsoOrdered]
      refine and_congr_right fun _ => ⟨fun alike place _ _ _ => alike place _ _, ?_⟩
      intro inside place inner another here there
      by_cases start : place = []
      · subst start
        cases here
        cases there
        exact fun first second same alsoSame => absurd alsoSame (other first second same)
      · exact inside place inner another start here there

/-- One as an integer. -/
def whole : Json := .number (.integer 1 (by decide))

/-- One as a float. -/
def point : Json := .number (.float ⟨false, ⟨1023 * Binary64.block, by decide⟩⟩)

/-- Scores of which the last one is given. -/
def scores (last : Json) : Json := .object [("scores", .array [whole, last])]

/-- Scores that are equal by value throughout are not strictly equal where the last one is an
integer here and a float there. Those that are strictly equal are so item by item. -/
theorem recoded_scores_differ :
    (scores whole).Ordered ∧ (scores point).Ordered ∧
    (scores whole).sameBy Number.equals (scores point) = true ∧
    (scores whole).at? [.member "scores", .item 1] = some whole ∧
    (scores point).at? [.member "scores", .item 1] = some point ∧ ¬NumbersAlike whole point ∧
    strictEquals (some (scores whole)) (some (scores point)) = false ∧
    strictEquals (some (scores point)) (some (scores point)) = true ∧
    List.Forall₂ (fun left right =>
      strictEquals (some left) (some right) = true ∧ NumbersAlike left right)
      [whole, point] [whole, point] := by
  have ordered (last : Json) (flat : last.Ordered) : (scores last).Ordered :=
    ⟨List.pairwise_singleton _ _, ⟨trivial, flat, trivial⟩, trivial⟩
  have different : ¬NumbersAlike whole point := fun alike => absurd (alike _ _ rfl rfl) (by decide)
  have equal : strictEquals (some (scores point)) (some (scores point)) = true := by
    decide +kernel
  refine ⟨ordered whole trivial, ordered point trivial, by decide +kernel, rfl, rfl, different,
    ?_, equal, ?_⟩
  · rw [Bool.eq_false_iff]
    intro recoded
    have throughout := (containers_equal_iff_numbers_alike _ _ (ordered whole trivial)
      (ordered point trivial)).2.2.mp recoded
    exact different (throughout.2 [.member "scores", .item 1] whole point (by decide) rfl rfl)
  · have values := ((containers_equal_iff_numbers_alike _ _ (ordered point trivial)
      (ordered point trivial)).2.1 _ _ rfl rfl).mp equal "scores"
    obtain ⟨items, _⟩ := Option.rel_some_some.mp values
    have list : (Json.array [whole, point]).Ordered := ⟨trivial, trivial, trivial⟩
    exact ((containers_equal_iff_numbers_alike _ _ list list).1 _ _ rfl rfl).mp items

/-- Not always are arrays strictly equal whose items are: the two ones are, and the arrays of them
are not. -/
theorem recoded_item_differs :
    ¬∀ lefts rights : List Json,
      strictEquals (some (.array lefts)) (some (.array rights)) = true ↔
        List.Forall₂ (fun left right => strictEquals (some left) (some right) = true)
          lefts rights := by
  intro law
  have equal : strictEquals (some whole) (some point) = true := by decide +kernel
  have arrays := (law [whole] [point]).mpr (.cons equal .nil)
  exact absurd arrays (by decide +kernel)

end CampusRules.Coercion
