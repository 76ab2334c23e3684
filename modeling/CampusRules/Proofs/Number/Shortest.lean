import CampusRules.Number.Shortest
import CampusRules.Proofs.Number.Decimal

/-!
# The shortest digits read back

Every candidate that the search for the shortest form accepts reads back as the number, and so
does the exact expansion at its end. The digits that are left without trailing zeros stand for
the candidate, up to a power of ten, and a decimal with that value has the number as its
nearest.
-/

namespace CampusRules.Binary64

/-- There are decimal units in a unit. -/
theorem decimalUnits_pos : 0 < decimalUnits := by decide +kernel

/-- The exact expansion of a number reads back. -/
theorem readsBack_expansion (number : Binary64) : number.readsBack number.expansion = true := by
  have scaled := nearestIndex_mul number.units 1 decimalUnits_pos
  rw [Nat.one_mul, units, nearestIndex_unitsAt] at scaled
  simp [readsBack, expansion, units, scaled]

/-- A neighbour that is taken reads back. -/
theorem readsBack_neighbour {tie : Tie} {number : Binary64} {grid candidate : Nat}
    (taken : number.neighbour? tie grid = some candidate) : number.readsBack candidate = true := by
  unfold neighbour? at taken
  extract_lets exact lower upper preferred other at taken
  clear_value preferred other
  split at taken
  · rename_i reads
    cases taken
    exact reads
  · split at taken
    · rename_i reads
      cases taken
      exact reads
    · cases taken

/-- The shortest magnitude reads back. -/
theorem readsBack_shortestUnits (tie : Tie) (number : Binary64) :
    number.readsBack (number.shortestUnits tie) = true := by
  unfold shortestUnits
  dsimp only
  cases found : (List.range _).findSome? fun kept => number.neighbour? tie _ with
  | none => exact readsBack_expansion number
  | some candidate =>
    obtain ⟨kept, _, taken⟩ := List.exists_of_findSome?_eq_some found
    exact readsBack_neighbour taken

/-- The shortest magnitude of a number that is not zero is not zero. -/
theorem shortestUnits_pos (tie : Tie) {number : Binary64} (nonzero : number.isZero = false) :
    0 < number.shortestUnits tie := by
  apply Nat.pos_of_ne_zero
  intro zero
  have readsBack := readsBack_shortestUnits tie number
  have vanishes : nearestIndex 0 decimalUnits = 0 := nearestIndex_of_small decimalUnits_pos
  have index : 0 = number.index.val := by
    simpa only [zero, Binary64.readsBack, vanishes, beq_iff_eq] using readsBack
  simp [isZero, ← index] at nonzero

/-- A significand with a power of ten is a magnitude in units of `10 ^ (-1074)`. -/
def Amounts (significand : Nat) (exponent : Int) (magnitude : Nat) : Prop :=
  ∃ shift : Nat, exponent = shift - 1074 ∧ significand * 10 ^ shift = magnitude

/-- A significand that ends in zeros may have them in its power of ten. -/
theorem Amounts.zeros {significand : Nat} {exponent : Int} {magnitude : Nat}
    (amounts : Amounts significand exponent magnitude) (count : Nat)
    (possible : (count : Int) - 1074 ≤ exponent) :
    Amounts (significand * 10 ^ count) (exponent - count) magnitude := by
  obtain ⟨shift, same, rfl⟩ := amounts
  obtain ⟨fewer, rfl⟩ : ∃ fewer, shift = count + fewer := ⟨shift - count, by omega⟩
  refine ⟨fewer, by omega, ?_⟩
  rw [Nat.mul_assoc, ← Nat.pow_add]

/-- Digits that stand for a magnitude; the first of them is not zero. -/
structure Denotes (digits : List Char) (exponent : Int) (magnitude : Nat) : Prop where
  digit : ∀ digit ∈ digits, isDigit digit = true
  leading : ∃ first rest, digits = first :: rest ∧ first ≠ '0'
  value : Amounts (numeral digits) exponent magnitude

/-- The shortest digits stand for the shortest magnitude. -/
theorem denotes_shortestDigits (tie : Tie) {number : Binary64} (nonzero : number.isZero = false) :
    Denotes (number.shortestDigits tie).1 (number.shortestDigits tie).2
      (number.shortestUnits tie) := by
  let digits := decimalDigits (number.shortestUnits tie)
  let zeros := digits.reverse.takeWhile (· == '0')
  let kept := (digits.reverse.dropWhile (· == '0')).reverse
  have all : ∀ digit ∈ zeros, digit = '0' := by
    intro digit member
    simpa using List.all_eq_true.mp (List.all_takeWhile) digit member
  have parts : digits = kept ++ List.replicate zeros.length '0' := by
    have split : zeros ++ digits.reverse.dropWhile (· == '0') = digits.reverse :=
      List.takeWhile_append_dropWhile
    have reversed := congrArg List.reverse split
    have same : zeros.reverse = List.replicate zeros.length '0' := by
      have zero := List.eq_replicate_of_mem all
      rw [zero, List.reverse_replicate, List.length_replicate]
    rw [List.reverse_append, List.reverse_reverse, same] at reversed
    exact reversed.symm
  have shortest : number.shortestDigits tie = (kept, (zeros.length : Int) - 1074) := by
    have front : digits.take (digits.length - zeros.length) = kept := by
      rw [parts]
      simp
    exact Prod.ext front rfl
  rw [shortest]
  have value : numeral kept * 10 ^ zeros.length = number.shortestUnits tie := by
    have whole := congrArg numeral parts
    rw [numeral_append, numeral_zeros, List.length_replicate, Nat.add_zero] at whole
    rw [← whole]
    exact numeral_decimalDigits _
  obtain ⟨first, rest, begins, notZero⟩ := decimalDigits_head (shortestUnits_pos tie nonzero)
  refine ⟨?_, ?_, zeros.length, rfl, value⟩
  · intro digit member
    have among : digit ∈ digits := by
      rw [parts]
      exact List.mem_append_left _ member
    exact isDigit_decimalDigits among
  · change digits = first :: rest at begins
    rw [parts] at begins
    cases ends : kept with
    | nil =>
      rw [ends, List.nil_append] at begins
      have zero : first = '0' := by
        have among : first ∈ List.replicate zeros.length '0' := by
          rw [begins]
          exact List.mem_cons_self
        exact List.eq_of_mem_replicate among
      exact absurd zero notZero
    | cons leading others =>
      rw [ends] at begins
      obtain ⟨rfl, _⟩ := List.cons.inj begins
      exact ⟨leading, others, rfl, notZero⟩

/-- As many powers of two as of five in a decimal unit make a power of ten. -/
theorem decimalUnits_mul_two_pow {bits : Nat} (many : bits = 1074) :
    decimalUnits * 2 ^ bits = 10 ^ bits := by
  unfold decimalUnits
  rw [← many, Nat.pow_eq]
  exact (Nat.mul_pow 5 2 bits).symm

/-- A decimal with the value of a magnitude that reads back as a number has that number as
its nearest, up to its sign. -/
theorem toQuantity_of_readsBack {number : Binary64} {magnitude significand : Nat} {exponent : Int}
    (readsBack : number.readsBack magnitude = true) (positive : 0 < magnitude)
    (amounts : Amounts significand exponent magnitude) (negative : Bool) :
    (Decimal.mk negative significand exponent).toQuantity = .finite ⟨negative, number.index⟩ := by
  obtain ⟨shift, scaled, value⟩ := amounts
  have nonzero : significand ≠ 0 := by
    rintro rfl
    omega
  obtain ⟨bits, many⟩ : ∃ bits, bits = 1074 := ⟨1074, rfl⟩
  have units := decimalUnits_mul_two_pow many
  have nearest : nearestIndex magnitude decimalUnits = number.index.val := beq_iff_eq.mp readsBack
  have shifted : exponent.toNat + bits = shift + (-exponent).toNat := by omega
  rw [Decimal.toQuantity_eq nonzero, ← many]
  apply Quantity.ofUnits_of_nearestIndex
  rw [← nearest]
  apply nearestIndex_eq_of_cross (Nat.pow_pos (by decide)) decimalUnits_pos
  calc significand * 10 ^ exponent.toNat * 2 ^ bits * decimalUnits
      = significand * (10 ^ exponent.toNat * (decimalUnits * 2 ^ bits)) := by ring
    _ = significand * 10 ^ (exponent.toNat + bits) := by rw [units, Nat.pow_add]
    _ = significand * 10 ^ shift * 10 ^ (-exponent).toNat := by
      rw [shifted, Nat.pow_add, Nat.mul_assoc]
    _ = magnitude * 10 ^ (-exponent).toNat := by rw [value]

end CampusRules.Binary64
