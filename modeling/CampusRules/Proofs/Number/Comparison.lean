import CampusRules.Proofs.Number.Binary64

/-!
# Comparing numbers

A finite number is determined by its value, the two zeros apart. Equality of quantities is that of
their values; only the undefined result is not equal to itself. No quantity is below one that it is
equal to, and none below itself.
-/

namespace CampusRules

namespace Binary64

/-- Different indices have different magnitudes. -/
theorem unitsAt_injective : Function.Injective unitsAt :=
  Function.LeftInverse.injective (g := fun units => nearestIndex units 1) nearestIndex_unitsAt

/-- Numbers of one sign and one magnitude are the same. -/
theorem eq_of_units {left right : Binary64} (sign : left.negative = right.negative)
    (same : left.units = right.units) : left = right := by
  obtain ⟨negative, index⟩ := left
  obtain ⟨_, other⟩ := right
  cases sign
  have index_eq : index = other := Fin.ext (unitsAt_injective same)
  rw [index_eq]

/-- Only a zero has no units. -/
theorem isZero_iff_units (number : Binary64) : number.isZero = true ↔ number.units = 0 := by
  have zero : unitsAt 0 = 0 := by decide
  rw [isZero, beq_iff_eq, units]
  constructor
  · intro first
    rw [first, zero]
  · intro none
    exact unitsAt_injective (none.trans zero.symm)

/-- Numbers that are equal are the same or both zero. -/
theorem eq_or_isZero_of_equals {left right : Binary64} (equal : left.equals right = true) :
    left = right ∨ (left.isZero = true ∧ right.isZero = true) := by
  rw [equals_iff, value, value] at equal
  rw [isZero_iff_units, isZero_iff_units]
  by_cases sign : left.negative = right.negative
  · left
    refine eq_of_units sign ?_
    rw [sign] at equal
    split at equal <;> omega
  · right
    split at equal <;> split at equal <;> grind

end Binary64

namespace Quantity

/-- Rounding always gives a number or an infinity. -/
theorem ofUnits_ne_undefined (negative : Bool) (numerator denominator : Nat) :
    ofUnits negative numerator denominator ≠ .undefined := by
  unfold ofUnits
  dsimp only
  split <;> simp

/-- A quantity is equal to itself unless it is undefined. -/
theorem equals_self_iff (quantity : Quantity) :
    quantity.equals quantity = true ↔ quantity ≠ .undefined := by
  cases quantity <;> simp [equals, Binary64.equals]

/-- Equality of quantities is symmetric. -/
theorem equals_symm {left right : Quantity} (equal : left.equals right = true) :
    right.equals left = true := by
  cases left <;> cases right <;> simp_all [equals, Binary64.equals_iff]

/-- Equality of quantities is transitive. -/
theorem equals_trans {first second third : Quantity} (left : first.equals second = true)
    (right : second.equals third = true) : first.equals third = true := by
  cases first <;> cases second <;> cases third <;> simp_all [equals, Binary64.equals_iff]

/-- No quantity is below itself. -/
theorem lessThan_irrefl (quantity : Quantity) : quantity.lessThan quantity = false := by
  cases below : quantity.lessThan quantity with
  | false => rfl
  | true => exact absurd (lessThan_asymmetric _ _ below) (by simp [below])

/-- No quantity is below one that it is equal to. -/
theorem lessThan_of_equals {left right : Quantity} (equal : left.equals right = true) :
    left.lessThan right = false := by
  cases below : left.lessThan right with
  | false => rfl
  | true => exact absurd (lessThan_not_equals _ _ below) (by simp [equal])

/-- Equal quantities are above and below the same ones. -/
theorem lessThan_congr {first second : Quantity} (equal : first.equals second = true)
    (other : Quantity) :
    first.lessThan other = second.lessThan other ∧ other.lessThan first = other.lessThan second := by
  cases first <;> cases second <;> cases other <;>
    simp_all [equals, lessThan, Binary64.equals_iff, Binary64.lessThan]

/-- The undefined result is below nothing, and nothing is below it. -/
theorem lessThan_of_undefined {left right : Quantity}
    (undefined : left = .undefined ∨ right = .undefined) : left.lessThan right = false := by
  rcases undefined with rfl | rfl
  · rfl
  · cases left <;> rfl

end Quantity
end CampusRules
