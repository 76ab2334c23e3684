import CampusRules.Proofs.Coercion.Equality

/-!
# Equal values coerce alike

Values that are strictly equal stand for equal numbers, or both for none. Numbers do by definition.
Any other value becomes a number through its text, and values that are the same have the same text:
of two equal floats the texts could only differ in the sign of zero, which running text leaves out.
-/

namespace CampusRules

/-- Floats that are equal read alike in running text. -/
theorem Layout.plain_write_of_equals {left right : Binary64} (equal : left.equals right = true) :
    Layout.plain.write left = Layout.plain.write right := by
  rcases Binary64.eq_or_isZero_of_equals equal with rfl | ⟨zero, alsoZero⟩
  · rfl
  · simp [write, zero, alsoZero, plain]

namespace Json

/-- Items with the same texts read alike behind their commas. -/
theorem moreText_congr {lefts rights : List Json}
    (paired : List.Forall₂ (fun left right => left.itemText = right.itemText) lefts rights) :
    moreText lefts = moreText rights := by
  induction paired with
  | nil => rfl
  | cons here _ inductionHypothesis => rw [moreText, moreText, here, inductionHypothesis]

/-- Arrays of items with the same texts read alike. -/
theorem itemText_array_congr {lefts rights : List Json}
    (paired : List.Forall₂ (fun left right => left.itemText = right.itemText) lefts rights) :
    (Json.array lefts).itemText = (Json.array rights).itemText := by
  cases paired with
  | nil => rfl
  | cons here behind => exact congrArg₂ (· ++ ·) here (moreText_congr behind)

/-- Numbers that are the same read alike. -/
theorem itemText_number_of_same {left right : Number} (alike : left.same right = true) :
    (Json.number left).itemText = (Json.number right).itemText := by
  cases left with
  | integer value fits =>
    cases right with
    | integer other alsoFits => exact congrArg integerText (beq_iff_eq.mp alike)
    | float other => cases alike
  | float value =>
    cases right with
    | integer other fits => cases alike
    | float other => exact Layout.plain_write_of_equals alike

/-- Values that are the same read alike as items of a list. -/
theorem itemText_of_same {left right : Json} (alike : left.sameBy Number.same right = true) :
    left.itemText = right.itemText := by
  induction left using induction generalizing right with
  | null => rw [null_sameBy_iff.mp alike]
  | bool value => rw [bool_sameBy_iff.mp alike]
  | string value => rw [string_sameBy_iff.mp alike]
  | number value =>
    obtain ⟨other, rfl, same⟩ := number_sameBy_iff.mp alike
    exact itemText_number_of_same same
  | array items inductionHypothesis =>
    obtain ⟨others, rfl, paired⟩ := array_sameBy_iff.mp alike
    exact itemText_array_congr (forall₂_imp_of_mem inductionHypothesis paired)
  | object members =>
    obtain ⟨others, rfl, _⟩ := object_sameBy_iff.mp alike
    rfl

/-- Values that are the same read alike. -/
theorem text_of_same {left right : Json} (alike : left.sameBy Number.same right = true) :
    left.text = right.text := by
  have items := itemText_of_same alike
  cases left with
  | null => rw [null_sameBy_iff.mp alike]
  | bool value => rw [bool_sameBy_iff.mp alike]
  | string value => rw [string_sameBy_iff.mp alike]
  | number value =>
    obtain ⟨other, rfl, _⟩ := number_sameBy_iff.mp alike
    exact items
  | array values =>
    obtain ⟨others, rfl, _⟩ := array_sameBy_iff.mp alike
    exact items
  | object members =>
    obtain ⟨others, rfl, _⟩ := object_sameBy_iff.mp alike
    exact items

end Json

namespace Coercion

open Json

/-- Values that are strictly equal coerce to one result, or to equal numbers. -/
theorem toNumber_of_strictEquals {left right : Json}
    (equal : strictEquals (some left) (some right) = true) :
    toNumber (some left) = toNumber (some right) ∨
      (toNumber (some left)).equals (toNumber (some right)) = true := by
  rcases strictEquals_some_iff.mp equal with ⟨first, second, rfl, rfl, same⟩ | alike
  · exact .inr same
  · cases left with
    | null => exact .inl (by rw [null_sameBy_iff.mp alike])
    | bool value => exact .inl (by rw [bool_sameBy_iff.mp alike])
    | string value => exact .inl (by rw [string_sameBy_iff.mp alike])
    | number value =>
      obtain ⟨other, rfl, same⟩ := number_sameBy_iff.mp alike
      exact .inr (Number.equals_of_same same)
    | array items =>
      obtain ⟨others, rfl, paired⟩ := array_sameBy_iff.mp alike
      -- Only an array of one item stands for what its text does.
      left
      rcases paired with _ | ⟨here, _ | ⟨_, _⟩⟩
      · rfl
      · rw [toNumber, toNumber, text_of_same here]
      · rfl
    | object members =>
      obtain ⟨others, rfl, _⟩ := object_sameBy_iff.mp alike
      exact .inl rfl

/-- Of values that are strictly equal neither stands for a number below the other's. -/
theorem lessThan_of_strictEquals {left right : Option Json}
    (equal : strictEquals left right = true) :
    (toNumber left).lessThan (toNumber right) = false ∧
      (toNumber right).lessThan (toNumber left) = false := by
  cases left with
  | none => exact absurd equal (by simp [strictEquals])
  | some left =>
    cases right with
    | none => exact absurd equal (by simp [strictEquals])
    | some right =>
      rcases toNumber_of_strictEquals equal with same | equals
      · rw [same]
        exact ⟨Quantity.lessThan_irrefl _, Quantity.lessThan_irrefl _⟩
      · exact ⟨Quantity.lessThan_of_equals equals,
          Quantity.lessThan_of_equals (Quantity.equals_symm equals)⟩

end Coercion
end CampusRules
