import CampusRules.Proofs.Number.Binary64

/-!
# Digits read back

The digits of a natural number stand for that number, and the first of them is zero only if
the number is. A run of digits ends where something else begins, so the digits in front of
such a place are split off whole.

The nearest binary64 number of a decimal is what one rounding of its exact ratio gives, also
where the power of ten decides by itself.
-/

namespace CampusRules

/-- A character is a digit when it lies between zero and nine. -/
theorem isDigit_iff (character : Char) :
    isDigit character = true ↔ '0' ≤ character ∧ character ≤ '9' := by
  unfold isDigit digitValue?
  split
  · simp_all
  · simp_all

/-- Our digits are those of the core library. -/
theorem isDigit_eq (character : Char) : isDigit character = character.isDigit := by
  rw [Bool.eq_iff_iff, isDigit_iff]
  simp [Char.isDigit, Char.le_def]

/-- The value of a digit is how far it lies behind zero. -/
theorem digitValue?_of_isDigit {character : Char} (digit : isDigit character = true) :
    digitValue? character = some (character.toNat - '0'.toNat) :=
  if_pos ((isDigit_iff character).mp digit)

/-- Reading on from a number shifts it by the digits that follow. -/
theorem foldl_digits (digits : List Char) (start : Nat) :
    digits.foldl (fun total digit => 10 * total + (digitValue? digit).getD 0) start =
      start * 10 ^ digits.length + numeral digits := by
  unfold numeral
  induction digits generalizing start with
  | nil => simp
  | cons digit rest inductionHypothesis =>
    simp only [List.foldl_cons, List.length_cons, inductionHypothesis (10 * start + _),
      inductionHypothesis (10 * 0 + _), Nat.pow_succ]
    ring

/-- Digits behind others are worth less by a power of ten. -/
theorem numeral_append (first second : List Char) :
    numeral (first ++ second) = numeral first * 10 ^ second.length + numeral second := by
  rw [numeral, List.foldl_append, foldl_digits]
  rfl

/-- A run of digits stands for less than the power of ten that has as many zeros. -/
theorem numeral_lt (digits : List Char) : numeral digits < 10 ^ digits.length := by
  induction digits with
  | nil => decide
  | cons digit digits inductionHypothesis =>
    have small : numeral [digit] ≤ 9 := by
      have value : (digitValue? digit).getD 0 ≤ 9 := by
        unfold digitValue?
        split
        · rename_i bounds
          have below : digit.toNat ≤ 57 := UInt32.le_iff_toNat_le.mp bounds.2
          change digit.toNat - 48 ≤ 9
          omega
        · decide
      simpa [numeral] using value
    have parts : numeral (digit :: digits) =
        numeral [digit] * 10 ^ digits.length + numeral digits := numeral_append [digit] digits
    rw [parts, List.length_cons, Nat.pow_succ]
    have scaled := Nat.mul_le_mul_right (10 ^ digits.length) small
    omega

/-- A number stands for its digits as the core library reads them. -/
theorem numeral_eq {digits : List Char} (all : ∀ digit ∈ digits, isDigit digit = true) :
    numeral digits = Nat.ofDigitChars 10 digits 0 := by
  induction digits with
  | nil => rfl
  | cons digit rest inductionHypothesis =>
    have value := digitValue?_of_isDigit (all digit List.mem_cons_self)
    have others := inductionHypothesis fun other member => all other (List.mem_cons_of_mem _ member)
    rw [Nat.ofDigitChars_cons, Nat.ofDigitChars_eq_ofDigitChars_zero, ← others, numeral,
      List.foldl_cons, foldl_digits, value]
    simp [Nat.mul_comm]

/-- Every character of a number is a digit. -/
theorem isDigit_decimalDigits {number : Nat} {digit : Char}
    (member : digit ∈ decimalDigits number) :
    isDigit digit = true := by
  rw [isDigit_eq]
  exact Nat.isDigit_of_mem_toDigits (by decide) (by decide) member

/-- A number has at least one digit. -/
theorem decimalDigits_ne_nil (number : Nat) : decimalDigits number ≠ [] :=
  Nat.toDigits_ne_nil

/-- The digits of a number stand for it. -/
@[simp]
theorem numeral_decimalDigits (number : Nat) : numeral (decimalDigits number) = number := by
  rw [numeral_eq fun _ member => isDigit_decimalDigits member]
  exact Nat.ofDigitChars_ten_toDigits

/-- Zeros are worth nothing. -/
@[simp]
theorem numeral_zeros (count : Nat) : numeral (List.replicate count '0') = 0 := by
  have all : ∀ digit ∈ List.replicate count '0', isDigit digit = true := by
    intro digit member
    rw [List.eq_of_mem_replicate member]
    rfl
  rw [numeral_eq all, Nat.ofDigitChars_replicate_zero, Nat.mul_zero]

/-- A number that is not zero begins with a digit that is not zero. -/
theorem decimalDigits_head {number : Nat} (positive : 0 < number) :
    ∃ first rest, decimalDigits number = first :: rest ∧ first ≠ '0' := by
  induction number using Nat.strongRecOn with
  | _ number inductionHypothesis =>
    by_cases small : number < 10
    · refine ⟨number.digitChar, [], Nat.toDigits_of_lt_base small, ?_⟩
      intro zero
      have value := Nat.toNat_digitChar_sub_48_of_lt_ten small
      rw [zero] at value
      exact positive.ne value
    · have digits : decimalDigits number =
          decimalDigits (number / 10) ++ [(number % 10).digitChar] :=
        Nat.toDigits_of_base_le (by decide) (by omega)
      obtain ⟨first, rest, leading, nonzero⟩ :=
        inductionHypothesis (number / 10) (by omega) (by omega)
      refine ⟨first, rest ++ [(number % 10).digitChar], ?_, nonzero⟩
      rw [digits, leading, List.cons_append]

/-- A text at which a run of digits ends. -/
def Stops (text : List Char) : Prop := ∀ first ∈ text.head?, isDigit first = false

/-- A text that begins with something else than a digit takes no more digits. -/
theorem stops_cons (first : Char) (other : isDigit first = false) (rest : List Char) :
    Stops (first :: rest) := by
  intro begins same
  obtain rfl : first = begins := by simpa using same
  exact other

/-- Digits in front of a place where a run of them ends are that run. -/
theorem takeWhile_digits {digits rest : List Char} (all : ∀ digit ∈ digits, isDigit digit = true)
    (stops : Stops rest) : (digits ++ rest).takeWhile isDigit = digits := by
  rw [List.takeWhile_append_of_pos all]
  cases rest with
  | nil => simp
  | cons first others => simp [stops first rfl]

/-- What follows the run of digits is the rest. -/
theorem dropWhile_digits {digits rest : List Char} (all : ∀ digit ∈ digits, isDigit digit = true)
    (stops : Stops rest) : (digits ++ rest).dropWhile isDigit = rest := by
  rw [List.dropWhile_append_of_pos all]
  cases rest with
  | nil => rfl
  | cons first others => simp [stops first rfl]

namespace Quantity

/-- A magnitude that rounds to the index of a number is that number, up to its sign. -/
theorem ofUnits_of_nearestIndex {numerator denominator : Nat} {index : Fin Binary64.magnitudes}
    (nearest : Binary64.nearestIndex numerator denominator = index.val) (negative : Bool) :
    ofUnits negative numerator denominator = .finite ⟨negative, index⟩ := by
  unfold ofUnits
  simp [nearest]

/-- A magnitude that rounds to an index behind the last is infinite. -/
theorem ofUnits_of_le {numerator denominator : Nat}
    (large : Binary64.magnitudes ≤ Binary64.nearestIndex numerator denominator) (negative : Bool) :
    ofUnits negative numerator denominator = .infinite negative := by
  unfold ofUnits
  rw [dif_neg (Nat.not_lt.mpr large)]

end Quantity

namespace Decimal

/-- A power of ten is at least the power of eight. -/
theorem two_pow_le_ten_pow (exponent : Nat) : 2 ^ (3 * exponent) ≤ 10 ^ exponent := by
  rw [Nat.pow_mul]
  exact Nat.pow_le_pow_left (by decide) exponent

/-- A large power of ten makes more units than a finite number has. -/
theorem nearestIndex_of_many {significand exponent bits : Nat} (nonzero : significand ≠ 0)
    (many : 2100 ≤ 3 * exponent + bits) :
    Binary64.magnitudes ≤ Binary64.nearestIndex (significand * 10 ^ exponent * 2 ^ bits) 1 := by
  have power : 2 ^ (3 * exponent) ≤ significand * 10 ^ exponent :=
    Nat.le_trans (two_pow_le_ten_pow _) (Nat.le_mul_of_pos_left _ (Nat.pos_of_ne_zero nonzero))
  apply Binary64.nearestIndex_of_large Nat.one_pos many
  rw [Nat.one_mul, Nat.pow_add]
  exact Nat.mul_le_mul_right _ power

/-- A large power of ten in the denominator leaves less than half a unit. -/
theorem nearestIndex_of_few {significand exponent bits : Nat} (nonzero : significand ≠ 0)
    (many : significand.log2 + bits + 2 ≤ 3 * exponent) :
    Binary64.nearestIndex (significand * 2 ^ bits) (10 ^ exponent) = 0 := by
  have length : significand < 2 ^ (significand.log2 + 1) :=
    (Nat.log2_lt nonzero).mp (Nat.lt_succ_self _)
  apply Binary64.nearestIndex_of_small
  calc 2 * (significand * 2 ^ bits)
      = significand * 2 ^ (bits + 1) := by rw [Nat.pow_succ]; ring
    _ < 2 ^ (significand.log2 + 1) * 2 ^ (bits + 1) :=
      Nat.mul_lt_mul_of_pos_right length (Nat.two_pow_pos _)
    _ = 2 ^ (significand.log2 + 1 + (bits + 1)) := (Nat.pow_add ..).symm
    _ ≤ 2 ^ (3 * exponent) := Nat.pow_le_pow_right (by decide) (by omega)
    _ ≤ 10 ^ exponent := two_pow_le_ten_pow _

/-- The nearest number of a decimal that is not zero is found by one rounding. -/
theorem toQuantity_eq {decimal : Decimal} (nonzero : decimal.significand ≠ 0) :
    decimal.toQuantity = .ofUnits decimal.negative
      (decimal.significand * 10 ^ decimal.exponent.toNat * 2 ^ 1074)
      (10 ^ (-decimal.exponent).toNat) := by
  have shift (number count : Nat) : number <<< count = number * 2 ^ count := Nat.shiftLeft_eq ..
  unfold toQuantity
  rw [if_neg nonzero]
  split
  · rename_i large
    have many : 401 ≤ decimal.exponent.toNat := by omega
    have none : (-decimal.exponent).toNat = 0 := by omega
    rw [none, Nat.pow_zero, Quantity.ofUnits_of_le (nearestIndex_of_many nonzero (by omega))]
  · split
    · rename_i small
      have many : 402 + decimal.significand.log2 ≤ (-decimal.exponent).toNat := by omega
      have none : decimal.exponent.toNat = 0 := by omega
      have vanishes : Binary64.nearestIndex (decimal.significand * 2 ^ 1074)
          (10 ^ (-decimal.exponent).toNat) = (⟨0, by decide⟩ : Fin Binary64.magnitudes).val :=
        nearestIndex_of_few nonzero (by omega)
      rw [none, Nat.pow_zero, Nat.mul_one]
      exact (Quantity.ofUnits_of_nearestIndex vanishes _).symm
    · split
      · rename_i positive
        have none : (-decimal.exponent).toNat = 0 := by omega
        rw [none, shift]
        rfl
      · rename_i negative
        have none : decimal.exponent.toNat = 0 := by omega
        rw [none, shift, Nat.pow_zero, Nat.mul_one]
        rfl

end Decimal
end CampusRules
