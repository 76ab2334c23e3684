import CampusRules.Proofs.Number.Comparison
import Mathlib.Order.Monotone.Basic

/-!
# Rounding finds what is nearest

The magnitudes lie on grids: in each block but the first the spacing is a power of two, and a block
ends where the next one begins, so an exponent and a significand name a magnitude as soon as they
are in range, also where the significand is the first one of the next block. A ratio lies between
two neighbours on the grid of its exponent, and no magnitude lies between these. So rounding to a
whole significand finds the nearest magnitude of all, and the one with the even index if two are
equally near. What is nearest does not run backwards.
-/

namespace CampusRules.Binary64

/-- An exponent and a significand in its range name a magnitude. The significand may be that of the
end of the block. -/
theorem unitsAt_grid {exponent significand : Nat} (fits : significand ≤ 2 * block)
    (normal : exponent = 0 ∨ block ≤ significand) :
    unitsAt (exponent * block + significand) = significand * 2 ^ exponent := by
  have positive : 0 < block := by decide
  by_cases small : exponent * block + significand < block
  · have first : exponent = 0 := by
      by_contra later
      have := Nat.le_mul_of_pos_left block (Nat.pos_of_ne_zero later)
      omega
    subst first
    rw [unitsAt, if_pos small]
    omega
  · have normal' : block ≤ significand := by
      rcases normal with rfl | large
      · omega
      · exact large
    rw [unitsAt, if_neg small, Nat.shiftLeft_eq]
    rcases Nat.lt_or_ge significand (2 * block) with inside | atEnd
    · obtain ⟨fraction, rfl⟩ := Nat.exists_eq_add_of_le normal'
      have fraction_lt : fraction < block := by omega
      have shape : exponent * block + (block + fraction) = fraction + block * (exponent + 1) := by
        ring
      rw [shape, Nat.add_mul_div_left _ _ positive, Nat.add_mul_mod_self_left,
        Nat.div_eq_of_lt fraction_lt, Nat.mod_eq_of_lt fraction_lt, Nat.zero_add,
        Nat.add_sub_cancel]
    · obtain rfl : significand = 2 * block := Nat.le_antisymm fits atEnd
      have shape : exponent * block + 2 * block = 0 + block * (exponent + 2) := by ring
      rw [shape, Nat.add_mul_div_left _ _ positive, Nat.add_mul_mod_self_left, Nat.zero_div,
        Nat.zero_mod, Nat.zero_add, Nat.add_zero]
      have exponent_succ : exponent + 2 - 1 = exponent + 1 := rfl
      rw [exponent_succ, Nat.pow_succ]
      ring

/-- Every index has an exponent and a significand. -/
theorem exists_grid (index : Nat) :
    ∃ exponent significand, index = exponent * block + significand ∧ significand < 2 * block ∧
      (exponent = 0 ∨ block ≤ significand) := by
  have parts := Nat.div_add_mod index block
  have inside : index % block < block := Nat.mod_lt _ (by decide)
  rcases Nat.eq_zero_or_pos (index / block) with first | later
  · refine ⟨0, index, by omega, ?_, .inl rfl⟩
    rw [first] at parts
    omega
  · obtain ⟨exponent, same⟩ : ∃ exponent, index / block = exponent + 1 :=
      ⟨index / block - 1, by omega⟩
    rw [same, Nat.mul_succ, Nat.mul_comm] at parts
    exact ⟨exponent, block + index % block, by omega, by omega, .inr (Nat.le_add_right _ _)⟩

/-- Magnitudes increase with their indices. -/
theorem unitsAt_strictMono : StrictMono unitsAt := by
  refine strictMono_nat_of_lt_succ fun index => ?_
  obtain ⟨exponent, significand, rfl, inside, normal⟩ := exists_grid index
  have next : exponent = 0 ∨ block ≤ significand + 1 := normal.imp_right (Nat.le_succ_of_le ·)
  rw [Nat.add_assoc, unitsAt_grid (Nat.le_of_lt inside) normal, unitsAt_grid inside next]
  exact Nat.mul_lt_mul_of_pos_right (Nat.lt_succ_self _) (Nat.two_pow_pos _)

variable (numerator denominator : Nat)

/-- The whole significand below a ratio is in the range of the exponent of the ratio. -/
theorem quotient_spacing :
    numerator / (denominator * 2 ^ spacing numerator denominator) < 2 * block ∧
      (spacing numerator denominator = 0 ∨
        block ≤ numerator / (denominator * 2 ^ spacing numerator denominator)) := by
  rw [← Nat.div_div_eq_div_mul]
  generalize shape : numerator / denominator = whole
  have length : spacing numerator denominator = whole.log2 + 1 - 53 := by rw [spacing, shape]
  generalize spacing numerator denominator = exponent at length
  rcases Nat.eq_zero_or_pos whole with rfl | nonzero
  · rw [Nat.zero_div]
    exact ⟨by decide, .inl (by rw [length]; decide)⟩
  · have upper : whole < 2 ^ (whole.log2 + 1) := Nat.lt_log2_self
    have lower : 2 ^ whole.log2 ≤ whole := Nat.log2_self_le nonzero.ne'
    have blocks : 2 * block = 2 ^ 53 := by decide
    constructor
    · rw [Nat.div_lt_iff_lt_mul (Nat.two_pow_pos _), blocks, ← Nat.pow_add]
      exact Nat.lt_of_lt_of_le upper (Nat.pow_le_pow_right (by decide) (by omega))
    · rcases Nat.eq_zero_or_pos exponent with first | later
      · exact .inl first
      · right
        have bits : block = 2 ^ 52 := by decide
        rw [Nat.le_div_iff_mul_le (Nat.two_pow_pos _), bits, ← Nat.pow_add]
        exact Nat.le_trans (Nat.pow_le_pow_right (by decide) (by omega)) lower

/-- A ratio rounds down if the rest is less than half, and up if it is more; if it is half, to the
even one of both. -/
theorem roundHalfEven_cases :
    (roundHalfEven numerator denominator = numerator / denominator ∧
        2 * (numerator % denominator) ≤ denominator ∧
        (2 * (numerator % denominator) = denominator → numerator / denominator % 2 = 0)) ∨
      (roundHalfEven numerator denominator = numerator / denominator + 1 ∧
        denominator ≤ 2 * (numerator % denominator) ∧
        (2 * (numerator % denominator) = denominator → numerator / denominator % 2 = 1)) := by
  unfold roundHalfEven
  dsimp only
  split
  · omega
  · split
    · omega
    · split <;> omega

/-- The index that a ratio rounds to, by its significand. -/
theorem nearestIndex_eq :
    nearestIndex numerator denominator = spacing numerator denominator * block +
      roundHalfEven numerator (denominator * 2 ^ spacing numerator denominator) := by
  rw [nearestIndex, Nat.shiftLeft_eq]

/-- The magnitude that a ratio rounds to. -/
theorem unitsAt_nearestIndex :
    unitsAt (nearestIndex numerator denominator) =
      roundHalfEven numerator (denominator * 2 ^ spacing numerator denominator) *
        2 ^ spacing numerator denominator := by
  obtain ⟨below, normal⟩ := quotient_spacing numerator denominator
  have rounds := roundHalfEven_cases numerator
    (denominator * 2 ^ spacing numerator denominator)
  rw [nearestIndex_eq]
  apply unitsAt_grid <;> omega

/-- How far a magnitude is from a ratio, in parts of a unit. -/
def distance (index : Nat) : Nat :=
  ((unitsAt index * denominator : Nat) - (numerator : Int)).natAbs

/-- No magnitude is nearer to a ratio than this one, and only if its index is even another one is as
near. -/
structure IsNearest (index : Nat) : Prop where
  nearest : ∀ other, distance numerator denominator index ≤ distance numerator denominator other
  even : ∀ other, other ≠ index →
    distance numerator denominator index = distance numerator denominator other → index % 2 = 0

variable {numerator denominator}

/-- A ratio rounds to what is nearest, and to the even index if two are equally near. -/
theorem isNearest_nearestIndex (positive : 0 < denominator) :
    IsNearest numerator denominator (nearestIndex numerator denominator) := by
  obtain ⟨below, normal⟩ := quotient_spacing numerator denominator
  have rounds := roundHalfEven_cases numerator (denominator * 2 ^ spacing numerator denominator)
  have parts := Nat.div_add_mod' numerator (denominator * 2 ^ spacing numerator denominator)
  have inside : numerator % (denominator * 2 ^ spacing numerator denominator) < _ :=
    Nat.mod_lt _ (Nat.mul_pos positive (Nat.two_pow_pos _))
  have index := nearestIndex_eq numerator denominator
  generalize spacing numerator denominator = exponent at *
  generalize numerator / (denominator * 2 ^ exponent) = quotient at *
  generalize numerator % (denominator * 2 ^ exponent) = rest at *
  have next : quotient + 1 ≤ 2 * block := below
  -- The two neighbours of the ratio on its grid, and where every other magnitude lies.
  have lower : unitsAt (exponent * block + quotient) * denominator =
      quotient * (denominator * 2 ^ exponent) := by
    rw [unitsAt_grid (Nat.le_of_lt below) normal]
    ring
  have upper : unitsAt (exponent * block + (quotient + 1)) * denominator =
      quotient * (denominator * 2 ^ exponent) + denominator * 2 ^ exponent := by
    rw [unitsAt_grid next (normal.imp_right (Nat.le_succ_of_le ·))]
    ring
  generalize denominator * 2 ^ exponent = grid at *
  generalize quotient * grid = start at *
  have outside (other : Nat) :
      other = exponent * block + quotient ∨ other = exponent * block + (quotient + 1) ∨
        unitsAt other * denominator < start ∨ start + grid < unitsAt other * denominator := by
    rcases Nat.lt_trichotomy other (exponent * block + quotient) with before | same | behind
    · have further := Nat.mul_lt_mul_of_pos_right (unitsAt_strictMono before) positive
      exact .inr (.inr (.inl (lower ▸ further)))
    · exact .inl same
    · rcases Nat.eq_or_lt_of_le (Nat.succ_le_of_lt behind) with same | beyond
      · exact .inr (.inl same.symm)
      · have further := Nat.mul_lt_mul_of_pos_right (unitsAt_strictMono beyond) positive
        exact .inr (.inr (.inr (upper ▸ further)))
  have apart (other : Nat) (different : other ≠ nearestIndex numerator denominator) :
      distance numerator denominator (nearestIndex numerator denominator) <
          distance numerator denominator other ∨
        distance numerator denominator (nearestIndex numerator denominator) =
            distance numerator denominator other ∧
          nearestIndex numerator denominator % 2 = 0 := by
    have even : exponent * block % 2 = 0 :=
      Nat.mod_eq_zero_of_dvd (Nat.dvd_mul_left_of_dvd (by decide : 2 ∣ block) exponent)
    unfold distance
    rw [index] at different ⊢
    rcases rounds with ⟨down, half, tie⟩ | ⟨up, half, tie⟩
    · rw [down] at different ⊢
      rw [lower]
      rcases outside other with rfl | rfl | before | behind
      · exact absurd rfl different
      · rw [upper]
        omega
      · omega
      · omega
    · rw [up] at different ⊢
      rw [upper]
      rcases outside other with rfl | rfl | before | behind
      · rw [lower]
        omega
      · exact absurd rfl different
      · omega
      · omega
  constructor
  · intro other
    by_cases same : other = nearestIndex numerator denominator
    · rw [same]
    · have := apart other same
      omega
  · intro other different equal
    have := apart other different
    omega

/-- Larger ratios round to no smaller indices. -/
theorem nearestIndex_mono (positive : 0 < denominator) {other : Nat} (ordered : numerator ≤ other) :
    nearestIndex numerator denominator ≤ nearestIndex other denominator := by
  apply Nat.not_lt.mp
  intro reversed
  have units := Nat.mul_lt_mul_of_pos_right (unitsAt_strictMono reversed) positive
  have here : IsNearest numerator denominator _ := isNearest_nearestIndex positive
  have there : IsNearest other denominator _ := isNearest_nearestIndex positive
  have first := here.nearest (nearestIndex other denominator)
  have second := there.nearest (nearestIndex numerator denominator)
  unfold distance at first second
  obtain rfl : numerator = other := by omega
  exact Nat.lt_irrefl _ reversed

end CampusRules.Binary64

namespace CampusRules.Quantity

/-- Whether a quantity is the number nearest to a natural number, ties to even. The magnitudes go
on behind the largest finite one, and what is nearest to one of those is infinite. -/
def IsNearestTo (quantity : Quantity) (number : Nat) : Prop :=
  ∃ index, Binary64.IsNearest (number <<< 1074) 1 index ∧
    quantity = if bounded : index < Binary64.magnitudes then .finite ⟨false, ⟨index, bounded⟩⟩
      else .infinite false

/-- A natural number is rounded to the nearest number. -/
theorem isNearestTo_ofNat (number : Nat) : (ofNat false number).IsNearestTo number :=
  ⟨_, Binary64.isNearest_nearestIndex Nat.one_pos, rfl⟩

end CampusRules.Quantity
