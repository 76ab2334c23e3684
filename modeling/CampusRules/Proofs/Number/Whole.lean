import CampusRules.Proofs.Number.Decimal
import CampusRules.Proofs.Number.Nearest

/-!
# Whole numbers as quantities

A natural number rounds to fifty-three significant bits, so what it rounds to is a natural number
again. The same holds of a count of units, and bits behind a number change nothing. A product and a
sum are rounded from what their operands were rounded to.
-/

namespace CampusRules

namespace Binary64

/-- A natural number rounded to fifty-three significant bits. -/
def rounded (number : Nat) : Nat :=
  roundHalfEven number (2 ^ (number.log2 - 52)) * 2 ^ (number.log2 - 52)

/-- A count of units rounds to a magnitude of fifty-three significant bits. -/
theorem unitsAt_nearestIndex_whole (units : Nat) :
    unitsAt (nearestIndex units 1) = rounded units := by
  have exponent : spacing units 1 = units.log2 - 52 := by
    rw [spacing, Nat.div_one]
    omega
  rw [unitsAt_nearestIndex, exponent, Nat.one_mul, rounded]

/-- What a number is rounded to is not rounded again. -/
theorem rounded_rounded (number : Nat) : rounded (rounded number) = rounded number := by
  rw [← unitsAt_nearestIndex_whole number, ← unitsAt_nearestIndex_whole, nearestIndex_unitsAt]

/-- Larger numbers round to no smaller ones. -/
theorem rounded_mono {first second : Nat} (ordered : first ≤ second) :
    rounded first ≤ rounded second := by
  rw [← unitsAt_nearestIndex_whole, ← unitsAt_nearestIndex_whole]
  exact unitsAt_strictMono.monotone (nearestIndex_mono Nat.one_pos ordered)

/-- A number is exact if it is a multiple of the spacing at its magnitude. -/
theorem rounded_of_dvd {number : Nat} (divides : 2 ^ (number.log2 - 52) ∣ number) :
    rounded number = number := by
  have exact := roundHalfEven_exact (number / 2 ^ (number.log2 - 52))
    (Nat.two_pow_pos (number.log2 - 52))
  rw [Nat.div_mul_cancel divides] at exact
  rw [rounded, exact, Nat.div_mul_cancel divides]

/-- An exact number is a multiple of the spacing at its magnitude. -/
theorem dvd_of_rounded {number : Nat} (exact : rounded number = number) :
    2 ^ (number.log2 - 52) ∣ number :=
  Dvd.intro_left _ exact

/-- A number of so many bits has a smaller logarithm, also if it is zero. -/
theorem log2_lt_of_lt {number bits : Nat} (positive : 0 < bits) (small : number < 2 ^ bits) :
    number.log2 < bits := by
  rcases Nat.eq_zero_or_pos number with rfl | nonzero
  · rwa [Nat.log2_zero]
  · exact (Nat.log2_lt nonzero.ne').mpr small

/-- A number of at most fifty-three bits is exact. -/
theorem rounded_of_lt {number : Nat} (small : number < 2 ^ 53) : rounded number = number := by
  apply rounded_of_dvd
  have short := log2_lt_of_lt (by decide) small
  have length : number.log2 - 52 = 0 := by omega
  rw [length]
  exact Nat.one_dvd _

/-- Bits behind a number count towards its logarithm. -/
theorem log2_mul_two_pow_add {number rest bits : Nat} (positive : 0 < number)
    (small : rest < 2 ^ bits) : (number * 2 ^ bits + rest).log2 = number.log2 + bits := by
  have lower := Nat.mul_le_mul_right (2 ^ bits) (Nat.log2_self_le positive.ne')
  have upper : (number + 1) * 2 ^ bits ≤ 2 ^ (number.log2 + 1) * 2 ^ bits :=
    Nat.mul_le_mul_right _ Nat.lt_log2_self
  have power : 0 < 2 ^ bits := Nat.two_pow_pos _
  have filled : 0 < number * 2 ^ bits := Nat.mul_pos positive power
  rw [Nat.log2_eq_iff (by omega), Nat.pow_add, Nat.add_right_comm, Nat.pow_add]
  rw [Nat.succ_mul] at upper
  omega

/-- Zero bits behind a number stay behind what it is rounded to. -/
theorem rounded_mul_two_pow (number bits : Nat) :
    rounded (number * 2 ^ bits) = rounded number * 2 ^ bits := by
  rcases Nat.eq_zero_or_pos number with rfl | positive
  · simp [rounded, roundHalfEven]
  · have length : (number * 2 ^ bits).log2 = number.log2 + bits :=
      log2_mul_two_pow_add positive (Nat.two_pow_pos bits)
    rcases Nat.lt_or_ge number (2 ^ 53) with small | large
    · rw [rounded_of_lt small]
      apply rounded_of_dvd
      have short := (Nat.log2_lt positive.ne').mpr small
      exact Nat.dvd_mul_left_of_dvd (Nat.pow_dvd_pow 2 (by omega)) number
    · have long : 53 ≤ number.log2 := (Nat.le_log2 positive.ne').mpr large
      have exponent : number.log2 + bits - 52 = number.log2 - 52 + bits := by omega
      rw [rounded, length, exponent, Nat.pow_add, roundHalfEven_mul _ _ (Nat.two_pow_pos bits),
        rounded, Nat.mul_assoc]

/-- Less than half of the denominator is lost. -/
theorem roundHalfEven_of_small {rest denominator : Nat} (whole : Nat)
    (small : 2 * rest < denominator) :
    roundHalfEven (whole * denominator + rest) denominator = whole := by
  have inside : rest < denominator := by omega
  have quotient : (whole * denominator + rest) / denominator = whole := by
    rw [Nat.mul_comm, Nat.mul_add_div (by omega), Nat.div_eq_of_lt inside, Nat.add_zero]
  have remainder : (whole * denominator + rest) % denominator = rest := by
    rw [Nat.mul_comm, Nat.mul_add_mod, Nat.mod_eq_of_lt inside]
  rw [roundHalfEven, quotient, remainder, if_pos small]

/-- Less than half of the spacing behind an exact number is lost. -/
theorem rounded_add_of_small {number rest : Nat} (positive : 0 < number)
    (exact : rounded number = number) (small : 2 * rest < 2 ^ (number.log2 - 52)) :
    rounded (number + rest) = number := by
  obtain ⟨significand, same⟩ := dvd_of_rounded exact
  have split : significand * 2 ^ (number.log2 - 52) = number := by rw [Nat.mul_comm, ← same]
  have nonzero : 0 < significand := by
    apply Nat.pos_of_ne_zero
    rintro rfl
    omega
  have log : (number + rest).log2 = number.log2 := by
    have whole := log2_mul_two_pow_add nonzero (Nat.two_pow_pos (number.log2 - 52))
    have more : (significand * 2 ^ (number.log2 - 52) + rest).log2 = _ :=
      log2_mul_two_pow_add nonzero (by omega)
    rw [split] at whole more
    exact more.trans whole.symm
  have rounds := roundHalfEven_of_small significand small
  rw [split] at rounds
  rw [rounded, log, rounds, split]

/-- What is read behind a number of more than fifty-three bits, bit by bit or several bits at a
time, is less than half of the spacing, and lost. -/
theorem rounded_shift_add {number rest bits : Nat} (large : 2 ^ 53 ≤ number)
    (small : rest < 2 ^ bits) :
    rounded (rounded number * 2 ^ bits + rest) = rounded number * 2 ^ bits := by
  have still : 2 ^ 53 ≤ rounded number := by
    have exact : rounded (2 ^ 53) = 2 ^ 53 := rounded_of_dvd (by decide)
    exact exact ▸ rounded_mono large
  have positive : 0 < rounded number := by omega
  have length : (rounded number * 2 ^ bits).log2 = (rounded number).log2 + bits :=
    log2_mul_two_pow_add positive (Nat.two_pow_pos bits)
  have long : 53 ≤ (rounded number).log2 := (Nat.le_log2 positive.ne').mpr still
  apply rounded_add_of_small (Nat.mul_pos positive (Nat.two_pow_pos _))
  · rw [rounded_mul_two_pow, rounded_rounded]
  · rw [length]
    calc 2 * rest < 2 ^ (bits + 1) := by rw [Nat.pow_succ]; omega
      _ ≤ 2 ^ ((rounded number).log2 + bits - 52) := Nat.pow_le_pow_right (by decide) (by omega)

end Binary64

namespace Quantity

open Binary64

variable (negative : Bool)

/-- What units round to is a number of so many units as they round to, or the magnitude is too
large, and all larger ones are, too. -/
theorem ofUnits_whole (units : Nat) :
    (∃ number, ofUnits negative units 1 = .finite number ∧ number.negative = negative ∧
        number.units = rounded units) ∨
      ofUnits negative units 1 = .infinite negative ∧
        ∀ more, rounded units ≤ more → ofUnits negative more 1 = .infinite negative := by
  by_cases bounded : nearestIndex units 1 < magnitudes
  · left
    exact ⟨_, ofUnits_of_nearestIndex (Eq.refl (⟨_, bounded⟩ : Fin magnitudes).val) negative, rfl,
      unitsAt_nearestIndex_whole units⟩
  · right
    have many : magnitudes ≤ nearestIndex units 1 := Nat.not_lt.mp bounded
    refine ⟨ofUnits_of_le many negative, fun more larger => ofUnits_of_le ?_ negative⟩
    rw [← unitsAt_nearestIndex_whole] at larger
    have grown : nearestIndex (unitsAt (nearestIndex units 1)) 1 ≤ nearestIndex more 1 :=
      nearestIndex_mono Nat.one_pos larger
    rw [nearestIndex_unitsAt] at grown
    exact Nat.le_trans many grown

/-- A product is rounded from what the first factor is rounded to. -/
theorem timesNat_ofUnits (units : Nat) {factor : Nat} (positive : 0 < factor) :
    (ofUnits negative units 1).timesNat factor = ofUnits negative (rounded units * factor) 1 := by
  rcases ofUnits_whole negative units with ⟨number, rounds, rfl, same⟩ | ⟨infinite, larger⟩
  · rw [rounds, timesNat, same]
  · rw [infinite, larger _ (Nat.le_mul_of_pos_right _ positive)]
    rfl

/-- A sum is rounded from what the first summand is rounded to. -/
theorem plusNat_ofUnits (units summand : Nat) :
    (ofUnits negative units 1).plusNat summand =
      ofUnits negative (rounded units + summand <<< 1074) 1 := by
  rcases ofUnits_whole negative units with ⟨number, rounds, rfl, same⟩ | ⟨infinite, larger⟩
  · rw [rounds, plusNat, same]
  · rw [infinite, larger _ (Nat.le_add_right _ _)]
    rfl

/-- A natural number is a count of units with zero bits behind it. -/
theorem ofNat_eq {bits : Nat} (scale : bits = 1074) (number : Nat) :
    ofNat negative number = ofUnits negative (number * 2 ^ bits) 1 := by
  rw [ofNat, ← scale, Nat.shiftLeft_eq]

/-- Rounding a natural number once more changes nothing. -/
theorem ofNat_rounded (number : Nat) : ofNat negative (rounded number) = ofNat negative number := by
  obtain ⟨bits, scale⟩ : ∃ bits, bits = 1074 := ⟨1074, rfl⟩
  have same : nearestIndex (rounded (number * 2 ^ bits)) 1 = nearestIndex (number * 2 ^ bits) 1 := by
    rw [← unitsAt_nearestIndex_whole, nearestIndex_unitsAt]
  rw [ofNat_eq negative scale, ofNat_eq negative scale, ← rounded_mul_two_pow]
  simp only [ofUnits, same]

/-- A natural number times another is rounded from what it is rounded to. -/
theorem timesNat_ofNat (number : Nat) {factor : Nat} (positive : 0 < factor) :
    (ofNat negative number).timesNat factor = ofNat negative (rounded number * factor) := by
  obtain ⟨bits, scale⟩ : ∃ bits, bits = 1074 := ⟨1074, rfl⟩
  rw [ofNat_eq negative scale, ofNat_eq negative scale, timesNat_ofUnits negative _ positive,
    rounded_mul_two_pow, Nat.mul_right_comm]

/-- A natural number plus another is rounded from what it is rounded to. -/
theorem plusNat_ofNat (number summand : Nat) :
    (ofNat negative number).plusNat summand = ofNat negative (rounded number + summand) := by
  obtain ⟨bits, scale⟩ : ∃ bits, bits = 1074 := ⟨1074, rfl⟩
  rw [ofNat_eq negative scale, ofNat_eq negative scale, plusNat_ofUnits, rounded_mul_two_pow,
    ← scale, Nat.shiftLeft_eq, Nat.add_mul]

end Quantity
end CampusRules
