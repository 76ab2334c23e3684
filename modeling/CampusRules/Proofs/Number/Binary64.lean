import CampusRules.Number.Decimal
import Mathlib.Data.Nat.Log
import Mathlib.Tactic.Ring

/-!
# Rounding finds what is there

Rounding a ratio depends on its value alone, not on how it is written. A ratio that is the
magnitude at an index rounds to that index, a ratio below half a unit to the index zero, and
a ratio that is far too large to an index beyond the last. So the nearest number of a decimal
is found by one rounding, whatever its power of ten: the powers that are settled at once are
those where the rounding has no choice.
-/

namespace CampusRules

namespace Binary64

/-- A ratio rounds to a whole number that does not depend on how it is written. -/
theorem roundHalfEven_mul (numerator denominator : Nat) {factor : Nat} (positive : 0 < factor) :
    roundHalfEven (numerator * factor) (denominator * factor) =
      roundHalfEven numerator denominator := by
  unfold roundHalfEven
  rw [Nat.mul_div_mul_right _ _ positive, Nat.mul_mod_mul_right]
  have left : 2 * (numerator % denominator * factor) = 2 * (numerator % denominator) * factor := by
    ring
  simp only [left, Nat.mul_lt_mul_right positive]

/-- A ratio rounds to an index that does not depend on how it is written. -/
theorem nearestIndex_mul (numerator denominator : Nat) {factor : Nat} (positive : 0 < factor) :
    nearestIndex (numerator * factor) (denominator * factor) =
      nearestIndex numerator denominator := by
  have same : spacing (numerator * factor) (denominator * factor) =
      spacing numerator denominator := by
    rw [spacing, spacing, Nat.mul_div_mul_right _ _ positive]
  have shifted (exponent : Nat) :
      (denominator * factor) <<< exponent = (denominator <<< exponent) * factor := by
    rw [Nat.shiftLeft_eq, Nat.shiftLeft_eq]
    ring
  simp only [nearestIndex, same, shifted, roundHalfEven_mul _ _ positive]

/-- Two ratios of one value round to one index. -/
theorem nearestIndex_eq_of_cross {numerator denominator other divisor : Nat}
    (positive : 0 < denominator) (divides : 0 < divisor)
    (cross : numerator * divisor = other * denominator) :
    nearestIndex numerator denominator = nearestIndex other divisor := by
  rw [← nearestIndex_mul numerator denominator divides, cross, Nat.mul_comm denominator,
    nearestIndex_mul other divisor positive]

/-- A whole number rounds to itself. -/
theorem roundHalfEven_exact (number : Nat) {denominator : Nat} (positive : 0 < denominator) :
    roundHalfEven (number * denominator) denominator = number := by
  simp [roundHalfEven, Nat.mul_div_cancel _ positive, positive]

/-- The spacing around a magnitude is zero in the first block and the second, and grows by
one in each further block. -/
theorem spacing_unitsAt (index : Nat) : spacing (unitsAt index) 1 = index / block - 1 := by
  unfold spacing unitsAt
  rw [Nat.div_one]
  split
  · rename_i small
    have bits : index.log2 < 52 ∨ index = 0 := by
      rcases Nat.eq_zero_or_pos index with zero | positive
      · exact .inr zero
      · exact .inl ((Nat.log2_lt positive.ne').mpr small)
    have first : index / block = 0 := Nat.div_eq_of_lt small
    rcases bits with bits | rfl
    · omega
    · decide
  · have inside : index % block < block := Nat.mod_lt _ (by decide)
    have bits :
        ((block + index % block) <<< (index / block - 1)).log2 = 52 + (index / block - 1) := by
      rw [Nat.shiftLeft_eq]
      have power : 0 < 2 ^ (index / block - 1) := Nat.two_pow_pos _
      have positive : (block + index % block) * 2 ^ (index / block - 1) ≠ 0 :=
        Nat.mul_ne_zero (Nat.ne_of_gt (Nat.lt_add_right _ (by decide))) power.ne'
      rw [Nat.log2_eq_iff positive, Nat.add_right_comm, Nat.pow_add, Nat.pow_add]
      constructor
      · exact Nat.mul_le_mul_right _ (Nat.le_add_right _ _)
      · exact Nat.mul_lt_mul_of_pos_right (Nat.add_lt_add_left inside block) power
    omega

/-- The magnitude at an index rounds to that index. -/
theorem nearestIndex_unitsAt (index : Nat) : nearestIndex (unitsAt index) 1 = index := by
  have parts := Nat.div_add_mod index block
  unfold nearestIndex
  dsimp only
  rw [spacing_unitsAt, Nat.shiftLeft_eq, Nat.one_mul]
  unfold unitsAt
  split
  · rename_i small
    have first : index / block = 0 := Nat.div_eq_of_lt small
    rw [first]
    simpa using roundHalfEven_exact index Nat.one_pos
  · rename_i large
    have later : 1 ≤ index / block := Nat.div_pos (Nat.le_of_not_lt large) (by decide)
    rw [Nat.shiftLeft_eq, roundHalfEven_exact _ (Nat.two_pow_pos _)]
    rw [Nat.sub_mul, Nat.one_mul, ← Nat.add_assoc,
      Nat.sub_add_cancel (Nat.le_mul_of_pos_left block later), Nat.mul_comm]
    exact parts

/-- Less than half a unit rounds to the index zero. -/
theorem nearestIndex_of_small {numerator denominator : Nat}
    (small : 2 * numerator < denominator) : nearestIndex numerator denominator = 0 := by
  have none : numerator / denominator = 0 := Nat.div_eq_of_lt (by omega)
  have whole : numerator % denominator = numerator := Nat.mod_eq_of_lt (by omega)
  simp [nearestIndex, spacing, none, roundHalfEven, whole, small]

/-- More units than a finite number has round to an index behind the last. -/
theorem nearestIndex_of_large {numerator denominator bits : Nat} (positive : 0 < denominator)
    (many : 2100 ≤ bits) (large : denominator * 2 ^ bits ≤ numerator) :
    magnitudes ≤ nearestIndex numerator denominator := by
  have quotient : 2 ^ bits ≤ numerator / denominator :=
    (Nat.le_div_iff_mul_le positive).mpr (by rwa [Nat.mul_comm])
  have length : bits ≤ (numerator / denominator).log2 :=
    (Nat.le_log2 (Nat.ne_of_gt (Nat.lt_of_lt_of_le (Nat.two_pow_pos _) quotient))).mpr quotient
  have spaced : 2047 ≤ spacing numerator denominator := by
    unfold spacing
    omega
  unfold nearestIndex
  exact Nat.le_trans (Nat.mul_le_mul_right block spaced) (Nat.le_add_right _ _)

end Binary64
end CampusRules
