import CampusRules.Proofs.Number.Whole

/-!
# Rounding digit by digit

A number that is read digit by digit is rounded at every digit, in a radix that is a power of two.
Up to fifty-three bits nothing is lost. The digit that goes beyond makes the quantity round for the
first time, and every further digit is less than half of the spacing, so it is lost as if it were
zero. What comes of it is the nearest quantity of the number with these digits `kept` out.

That is the nearest quantity of the number itself, unless the digits that are left end in a tie that
goes down, and a lost digit would have broken the tie.
-/

namespace CampusRules

namespace Binary64

/-- How many bits the digits have that are lost: those behind the first digit that goes beyond
fifty-three bits. -/
def lostBits (bits number : Nat) : Nat := bits * ((number.log2 - 53) / bits)

/-- A number with zeros for the digits that are lost. -/
def kept (bits number : Nat) : Nat :=
  number / 2 ^ lostBits bits number * 2 ^ lostBits bits number

/-- A number that goes beyond fifty-three bits by one digit at most keeps all its digits. -/
theorem kept_of_log2 {bits number : Nat} (positive : 0 < bits)
    (short : number.log2 < 53 + bits) : kept bits number = number := by
  have nothing : lostBits bits number = 0 := by
    rw [lostBits, Nat.div_eq_of_lt (by omega), Nat.mul_zero]
  rw [kept, nothing, Nat.pow_zero, Nat.div_one, Nat.mul_one]

/-- A number is made of the digits that are kept and those that are lost. -/
theorem kept_add_lost (bits number : Nat) :
    kept bits number + number % 2 ^ lostBits bits number = number :=
  Nat.div_add_mod' number _

/-- The first digits are kept, so a number keeps its length. -/
theorem log2_kept (bits : Nat) {number : Nat} (nonzero : 0 < number) :
    (kept bits number).log2 = number.log2 := by
  have least : 2 ^ lostBits bits number ≤ number := by
    refine Nat.le_trans (Nat.pow_le_pow_right (by decide) ?_) (Nat.log2_self_le nonzero.ne')
    exact Nat.le_trans (Nat.mul_div_le _ _) (Nat.sub_le _ _)
  have some' : 0 < number / 2 ^ lostBits bits number := Nat.div_pos least (Nat.two_pow_pos _)
  have whole : (kept bits number).log2 = _ :=
    log2_mul_two_pow_add some' (Nat.two_pow_pos (lostBits bits number))
  have parts := log2_mul_two_pow_add some'
    (Nat.mod_lt number (Nat.two_pow_pos (lostBits bits number)))
  rw [Nat.div_add_mod'] at parts
  exact whole.trans parts.symm

section

variable {bits : Nat} (positive : 0 < bits) {number digit : Nat} (inside : digit < 2 ^ bits)

include positive inside

/-- A digit behind a number of at most fifty-three bits is kept. -/
theorem kept_push_of_lt (small : number < 2 ^ 53) :
    kept bits (number * 2 ^ bits + digit) = number * 2 ^ bits + digit := by
  apply kept_of_log2 positive
  apply log2_lt_of_lt (by omega)
  calc number * 2 ^ bits + digit
      < (number + 1) * 2 ^ bits := by rw [Nat.succ_mul]; omega
    _ ≤ 2 ^ 53 * 2 ^ bits := Nat.mul_le_mul_right _ small
    _ = 2 ^ (53 + bits) := (Nat.pow_add ..).symm

/-- A digit behind a number of more bits is lost. -/
theorem kept_push_of_le (large : 2 ^ 53 ≤ number) :
    kept bits (number * 2 ^ bits + digit) = kept bits number * 2 ^ bits := by
  have nonzero : 0 < number := Nat.lt_of_lt_of_le (Nat.two_pow_pos _) large
  have long : 53 ≤ number.log2 := (Nat.le_log2 nonzero.ne').mpr large
  have more : lostBits bits (number * 2 ^ bits + digit) = lostBits bits number + bits := by
    have shifted : number.log2 + bits - 53 = number.log2 - 53 + bits := by omega
    rw [lostBits, log2_mul_two_pow_add nonzero inside, shifted, Nat.add_div_right _ positive,
      Nat.mul_succ, lostBits]
  have whole : (number * 2 ^ bits + digit) / 2 ^ bits = number := by
    rw [Nat.mul_comm, Nat.mul_add_div (Nat.two_pow_pos _), Nat.div_eq_of_lt inside, Nat.add_zero]
  rw [kept, more, Nat.pow_add, Nat.mul_comm (2 ^ lostBits bits number), ← Nat.div_div_eq_div_mul,
    whole, kept]
  ring

end

/-- A number keeps at least fifty-three bits if it has more. -/
theorem le_kept (bits : Nat) {number : Nat} (large : 2 ^ 53 ≤ number) :
    2 ^ 53 ≤ kept bits number := by
  have nonzero : 0 < number := Nat.lt_of_lt_of_le (Nat.two_pow_pos _) large
  have length := log2_kept bits nonzero
  have long := (Nat.le_log2 nonzero.ne').mpr large
  have some' : kept bits number ≠ 0 := by
    intro none
    rw [none, Nat.log2_zero] at length
    omega
  exact (Nat.le_log2 some').mp (length ▸ long)

/-- What is less than the unit that divides a number and half of a grid makes a difference on that
grid only if it breaks a tie that goes down. -/
theorem roundHalfEven_add_rest {number unit grid rest : Nat} (whole : unit ∣ number)
    (coarse : 2 * unit ∣ grid) (positive : 0 < grid) (inside : rest < unit) :
    roundHalfEven (number + rest) grid =
      roundHalfEven number grid +
        if rest ≠ 0 ∧ 2 * (number % grid) = grid ∧ number / grid % 2 = 0 then 1 else 0 := by
  have unitDivides : unit ∣ grid := Dvd.dvd.trans (Nat.dvd_mul_left unit 2) coarse
  obtain ⟨below, remainder⟩ := (Nat.dvd_mod_iff unitDivides).mpr whole
  obtain ⟨half, split⟩ := coarse
  rw [Nat.mul_assoc] at split
  have parts := Nat.div_add_mod number grid
  have short : number % grid < grid := Nat.mod_lt _ positive
  rw [remainder] at parts short
  -- The remainder is a whole number of units, so with the rest it stays below what it was below.
  have under (bound : Nat) (less : below < bound) : unit * below + rest < unit * bound := by
    have scaled := Nat.mul_le_mul_left unit (Nat.succ_le_of_lt less)
    rw [Nat.mul_succ] at scaled
    omega
  have fits : unit * below + rest < grid := by
    have bounded := under (2 * half)
    rw [Nat.mul_left_comm, ← split] at bounded
    refine bounded (Nat.lt_of_mul_lt_mul_left (a := unit) ?_)
    rw [Nat.mul_left_comm, ← split]
    exact short
  have quotient : (number + rest) / grid = number / grid := by
    rw [← parts, Nat.add_assoc, Nat.mul_add_div positive, Nat.div_eq_of_lt fits, Nat.add_zero,
      parts]
  have rest_eq : (number + rest) % grid = unit * below + rest := by
    rw [← parts, Nat.add_assoc, Nat.mul_add_mod, Nat.mod_eq_of_lt fits]
  rw [roundHalfEven, quotient, rest_eq, roundHalfEven, remainder]
  generalize number / grid = lower
  rcases Nat.lt_trichotomy below half with before | rfl | behind
  · have less := under half before
    rw [if_pos (by omega), if_pos (by omega), if_neg (by omega), Nat.add_zero]
  · by_cases exact : rest = 0
    · subst exact
      simp
    · rw [if_neg (by omega), if_pos (by omega), if_neg (by omega), if_neg (by omega)]
      by_cases even : lower % 2 = 0
      · rw [if_pos even, if_pos ⟨exact, split.symm, even⟩]
      · rw [if_neg even, if_neg (fun tie => even tie.2.2)]
  · have more : unit * half < unit * below := Nat.mul_lt_mul_of_pos_left behind (by omega)
    rw [if_neg (by omega), if_pos (by omega), if_neg (by omega), if_pos (by omega),
      if_neg (by omega)]

/-- Digits are lost that would have broken a tie between two finite magnitudes, of which the lower
one has the even index. -/
structure LosesTie (bits number : Nat) : Prop where
  lost : kept bits number ≠ number
  half : 2 * (kept bits number % 2 ^ (number.log2 - 52)) = 2 ^ (number.log2 - 52)
  even : kept bits number / 2 ^ (number.log2 - 52) % 2 = 0
  finite : number.log2 < 1024

instance (bits number : Nat) : Decidable (LosesTie bits number) :=
  decidable_of_iff (kept bits number ≠ number ∧
    2 * (kept bits number % 2 ^ (number.log2 - 52)) = 2 ^ (number.log2 - 52) ∧
    kept bits number / 2 ^ (number.log2 - 52) % 2 = 0 ∧ number.log2 < 1024)
    ⟨fun ⟨lost, half, even, finite⟩ => ⟨lost, half, even, finite⟩,
      fun ⟨lost, half, even, finite⟩ => ⟨lost, half, even, finite⟩⟩

/-- The digits that are lost make a difference only if they would have broken a tie. -/
theorem roundHalfEven_kept (bits : Nat) {number : Nat} (large : 2 ^ 53 ≤ number) :
    roundHalfEven number (2 ^ (number.log2 - 52)) =
      roundHalfEven (kept bits number) (2 ^ (number.log2 - 52)) +
        if kept bits number ≠ number ∧
            2 * (kept bits number % 2 ^ (number.log2 - 52)) = 2 ^ (number.log2 - 52) ∧
            kept bits number / 2 ^ (number.log2 - 52) % 2 = 0 then 1 else 0 := by
  have nonzero : 0 < number := Nat.lt_of_lt_of_le (Nat.two_pow_pos _) large
  have long : 53 ≤ number.log2 := (Nat.le_log2 nonzero.ne').mpr large
  have shorter : lostBits bits number ≤ number.log2 - 53 := Nat.mul_div_le _ _
  have coarse : 2 * 2 ^ lostBits bits number ∣ 2 ^ (number.log2 - 52) := by
    rw [← Nat.pow_succ']
    exact Nat.pow_dvd_pow 2 (by omega)
  have parts := kept_add_lost bits number
  have whole : 2 ^ lostBits bits number ∣ kept bits number := Nat.dvd_mul_left _ _
  have rounds := roundHalfEven_add_rest whole coarse (Nat.two_pow_pos _)
    (Nat.mod_lt number (Nat.two_pow_pos (lostBits bits number)))
  have broken : number % 2 ^ lostBits bits number ≠ 0 ↔ kept bits number ≠ number := by omega
  rw [parts] at rounds
  rw [rounds]
  exact congrArg (_ + ·) (if_congr (and_congr_left' broken) rfl rfl)

/-- The index of a whole number of fifty-three bits or more, by its significand. -/
theorem nearestIndex_whole {number bits : Nat} (scale : bits = 1074) (large : 2 ^ 52 ≤ number) :
    nearestIndex (number * 2 ^ bits) 1 =
      (number.log2 + 1022) * block + roundHalfEven number (2 ^ (number.log2 - 52)) := by
  have nonzero : 0 < number := Nat.lt_of_lt_of_le (Nat.two_pow_pos _) large
  have long : 52 ≤ number.log2 := (Nat.le_log2 nonzero.ne').mpr large
  have length : (number * 2 ^ bits).log2 = number.log2 + bits :=
    log2_mul_two_pow_add nonzero (Nat.two_pow_pos bits)
  have exponent : spacing (number * 2 ^ bits) 1 = number.log2 - 52 + bits := by
    rw [spacing, Nat.div_one, length]
    omega
  have sum : number.log2 - 52 + bits = number.log2 + 1022 := by omega
  rw [nearestIndex_eq, exponent, Nat.one_mul, Nat.pow_add,
    roundHalfEven_mul _ _ (Nat.two_pow_pos bits), sum]

/-- The significand of a whole number of fifty-three bits or more is that of a block. -/
theorem significand_whole {number : Nat} (long : 53 ≤ number.log2) :
    block ≤ number / 2 ^ (number.log2 - 52) ∧ number / 2 ^ (number.log2 - 52) < 2 * block := by
  have exponent : spacing number 1 = number.log2 - 52 := by
    rw [spacing, Nat.div_one]
    omega
  obtain ⟨below, normal⟩ := quotient_spacing number 1
  rw [exponent, Nat.one_mul] at below normal
  exact ⟨normal.resolve_left (by omega), below⟩

end Binary64

namespace Quantity

open Binary64

/-- Units round to one quantity if they have one nearest magnitude, or are both too large. -/
theorem ofUnits_eq_iff {negative : Bool} {units others : Nat} :
    ofUnits negative units 1 = ofUnits negative others 1 ↔
      nearestIndex units 1 = nearestIndex others 1 ∨
        magnitudes ≤ nearestIndex units 1 ∧ magnitudes ≤ nearestIndex others 1 := by
  unfold ofUnits
  dsimp only
  split <;> split <;> simp <;> omega

variable (negative : Bool) {bits : Nat} (positive : 0 < bits)

include positive

/-- One more digit is read as if the digits that are lost were not there. -/
theorem push_kept {digit : Nat} (inside : digit < 2 ^ bits) (number : Nat) :
    ((ofNat negative (kept bits number)).timesNat (2 ^ bits)).plusNat digit =
      ofNat negative (kept bits (number * 2 ^ bits + digit)) := by
  rw [timesNat_ofNat negative _ (Nat.two_pow_pos bits), plusNat_ofNat, rounded_mul_two_pow,
    rounded_rounded]
  rcases Nat.lt_or_ge number (2 ^ 53) with small | large
  · have short : number.log2 < 53 := log2_lt_of_lt (by decide) small
    rw [kept_of_log2 positive (by omega), rounded_of_lt small, kept_push_of_lt positive inside small]
  · rw [kept_push_of_le positive inside large, ← ofNat_rounded,
      rounded_shift_add (le_kept bits large) inside, ← rounded_mul_two_pow, ofNat_rounded]

/-- What is read digit by digit is the nearest quantity exactly if no tie is lost. -/
theorem ofNat_kept_iff (number : Nat) :
    ofNat negative (kept bits number) = ofNat negative number ↔ ¬LosesTie bits number := by
  rcases Nat.lt_or_ge number.log2 53 with short | long
  · have all : kept bits number = number := kept_of_log2 positive (by omega)
    rw [all]
    exact iff_of_true rfl fun tie => tie.lost all
  have nonzero : 0 < number := by
    apply Nat.pos_of_ne_zero
    rintro rfl
    rw [Nat.log2_zero] at long
    omega
  have large : 2 ^ 53 ≤ number := (Nat.le_log2 nonzero.ne').mp long
  obtain ⟨scale, same⟩ : ∃ scale, scale = 1074 := ⟨1074, rfl⟩
  have length := log2_kept bits nonzero
  have here := nearestIndex_whole same (Nat.le_trans (by decide) (le_kept bits large))
  have there := nearestIndex_whole same (Nat.le_trans (by decide) large)
  have difference := roundHalfEven_kept bits large
  have significand := significand_whole (length ▸ long : 53 ≤ (kept bits number).log2)
  rw [length] at here significand
  have blocks : magnitudes = 2047 * block := rfl
  rw [ofNat_eq negative same, ofNat_eq negative same, ofUnits_eq_iff, here, there, difference]
  by_cases tie : kept bits number ≠ number ∧
      2 * (kept bits number % 2 ^ (number.log2 - 52)) = 2 ^ (number.log2 - 52) ∧
      kept bits number / 2 ^ (number.log2 - 52) % 2 = 0
  · rw [if_pos tie]
    obtain ⟨lost, half, even⟩ := tie
    have rounds := roundHalfEven_cases (kept bits number) (2 ^ (number.log2 - 52))
    rcases Nat.lt_or_ge number.log2 1024 with finite | infinite
    · have below : (number.log2 + 1022) * block ≤ 2045 * block :=
        Nat.mul_le_mul_right block (by omega)
      exact iff_of_false (by omega) (fun keeps => keeps ⟨lost, half, even, finite⟩)
    · have beyond : 2046 * block ≤ (number.log2 + 1022) * block :=
        Nat.mul_le_mul_right block (by omega)
      exact iff_of_true (.inr (by omega)) (fun ties => absurd ties.finite (by omega))
  · rw [if_neg tie]
    exact iff_of_true (.inl rfl) (fun ⟨lost, half, even, _⟩ => tie ⟨lost, half, even⟩)

end Quantity
end CampusRules
