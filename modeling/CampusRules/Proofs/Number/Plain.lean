import CampusRules.Proofs.Number.Numeral
import CampusRules.Proofs.Number.Shortest

/-!
# Numbers in running text read back

In running text a number is written with a point only before a fraction, and with an exponent where
it is very large or very small. Each of these forms is a numeral that amounts to the shortest digits
of the number, so the nearest number of that numeral is the number again. The two zeros are written
alike, and read back as the positive one.
-/

namespace CampusRules

namespace Decimal

/-- A text that reads as a numeral, behind a sign, which amounts to a magnitude. -/
def Reads (negative : Bool) (text : List Char) (magnitude : Nat) : Prop :=
  ∃ significand exponent, Binary64.Amounts significand exponent magnitude ∧
    parse? ((if negative then ['-'] else []) ++ text) = some ⟨negative, significand, exponent⟩

variable {digits : List Char} {exponent : Int} {magnitude : Nat}

/-- Zeros are digits. -/
theorem isDigit_zeros (count : Nat) : ∀ digit ∈ List.replicate count '0', isDigit digit = true := by
  intro digit member
  rw [List.eq_of_mem_replicate member]
  rfl

/-- Digits in front of where a point would be read as what they amount to. -/
theorem reads_whole (denotes : Binary64.Denotes digits exponent magnitude) (large : 0 ≤ exponent)
    (negative : Bool) : Reads negative (digits ++ List.replicate exponent.toNat '0') magnitude := by
  obtain ⟨all, ⟨first, more, rfl, _⟩, amounts⟩ := denotes
  have read := parse?_digits negative
    (List.forall_mem_append.mpr ⟨all, isDigit_zeros exponent.toNat⟩) (List.cons_ne_nil _ _)
  have value : numeral (first :: more ++ List.replicate exponent.toNat '0') =
      numeral (first :: more) * 10 ^ exponent.toNat := by
    rw [numeral_append, numeral_zeros, List.length_replicate, Nat.add_zero]
  have scaled : exponent - (exponent.toNat : Int) = 0 := by omega
  have shifted := amounts.zeros exponent.toNat (by omega)
  rw [scaled] at shifted
  rw [value] at read
  exact ⟨_, _, shifted, read⟩

/-- Digits with a point among them, and nothing else, read as what they amount to. -/
theorem reads_point {whole fraction : List Char} (all : ∀ digit ∈ whole, isDigit digit = true)
    (some' : whole ≠ []) (behind : ∀ digit ∈ fraction, isDigit digit = true)
    (amounts : Binary64.Amounts (numeral (whole ++ fraction)) (-(fraction.length : Int)) magnitude)
    (negative : Bool) :
    Reads negative (whole ++ '.' :: fraction) magnitude := by
  have point := fractionOf_point behind (fun _ none => absurd none (by simp) : Stops [])
  rw [List.append_nil] at point
  have read := parse?_of_parts negative all some' (stops_cons '.' rfl fraction) point
    (rfl : exponentOf? [] = some 0)
  rw [Int.zero_sub] at read
  exact ⟨_, _, amounts, read⟩

/-- Digits on both sides of the point read as what they amount to. -/
theorem reads_split (denotes : Binary64.Denotes digits exponent magnitude) (small : exponent < 0)
    (whole : 0 < (digits.length : Int) + exponent) (negative : Bool) :
    Reads negative
      (digits.take ((digits.length : Int) + exponent).toNat ++
        '.' :: digits.drop ((digits.length : Int) + exponent).toNat) magnitude := by
  obtain ⟨all, _, amounts⟩ := denotes
  refine reads_point (fun digit member => all digit (List.mem_of_mem_take member)) ?_
    (fun digit member => all digit (List.mem_of_mem_drop member)) ?_ negative
  · apply List.length_pos_iff.mp
    rw [List.length_take]
    omega
  · have scaled :
        -((digits.drop ((digits.length : Int) + exponent).toNat).length : Int) = exponent := by
      rw [List.length_drop]
      omega
    rw [List.take_append_drop, scaled]
    exact amounts

/-- Digits behind the point read as what they amount to. -/
theorem reads_fraction (denotes : Binary64.Denotes digits exponent magnitude)
    (none : (digits.length : Int) + exponent ≤ 0) (negative : Bool) :
    Reads negative
      ('0' :: '.' :: List.replicate (-((digits.length : Int) + exponent)).toNat '0' ++ digits)
      magnitude := by
  obtain ⟨all, _, amounts⟩ := denotes
  have zero : ∀ digit ∈ ['0'], isDigit digit = true := List.forall_mem_singleton.mpr rfl
  have value : numeral (['0'] ++
      (List.replicate (-((digits.length : Int) + exponent)).toNat '0' ++ digits)) =
        numeral digits := by
    rw [numeral_append, numeral_append, numeral_zeros]
    simp [numeral, digitValue?]
  have scaled : -((List.replicate (-((digits.length : Int) + exponent)).toNat '0' ++
      digits).length : Int) = exponent := by
    rw [List.length_append, List.length_replicate]
    omega
  refine reads_point zero (List.cons_ne_nil _ _)
    (List.forall_mem_append.mpr ⟨isDigit_zeros _, all⟩) ?_ negative
  rw [value, scaled]
  exact amounts

/-- Digits in exponent form read as what they amount to. -/
theorem reads_scientific (denotes : Binary64.Denotes digits exponent magnitude) (negative : Bool) :
    Reads negative (Layout.scientific digits (exponent + digits.length - 1)) magnitude := by
  obtain ⟨all, ⟨first, more, rfl, _⟩, amounts⟩ := denotes
  generalize scale : exponent + (first :: more).length - 1 = leading
  have ends := exponentOf?_signed leading
  have alone : ∀ digit ∈ [first], isDigit digit = true := by
    simpa using all first List.mem_cons_self
  cases more with
  | nil =>
    have read := parse?_of_parts negative alone (List.cons_ne_nil _ _) (stops_cons 'e' rfl _)
      (fractionOf_none (by simp)) ends
    have same : leading = exponent := by
      rw [← scale, List.length_singleton]
      omega
    rw [List.append_nil, List.length_nil, Int.natCast_zero, Int.sub_zero] at read
    exact ⟨_, _, same ▸ amounts, read⟩
  | cons second others =>
    have behind : ∀ digit ∈ second :: others, isDigit digit = true :=
      fun digit member => all digit (List.mem_cons_of_mem _ member)
    have read := parse?_of_parts negative alone (List.cons_ne_nil _ _) (stops_cons '.' rfl _)
      (fractionOf_point behind (stops_cons 'e' rfl _)) ends
    have same : leading - ((second :: others).length : Int) = exponent := by
      rw [← scale]
      simp only [List.length_cons]
      omega
    rw [same] at read
    exact ⟨_, _, amounts, read⟩

/-- The positional form of digits in running text reads as what they amount to. -/
theorem reads_positional (denotes : Binary64.Denotes digits exponent magnitude)
    (negative : Bool) : Reads negative (Layout.plain.positional digits exponent) magnitude := by
  unfold Layout.positional
  split
  · rename_i large
    have pointless : (if Layout.plain.wholePoint then ['.', '0'] else []) = [] := rfl
    rw [pointless, List.append_nil]
    exact reads_whole denotes large negative
  · rename_i small
    dsimp only
    split
    · rename_i whole
      exact reads_split denotes (Int.not_le.mp small) whole negative
    · rename_i none
      exact reads_fraction denotes (Int.not_lt.mp none) negative

end Decimal

namespace Layout

/-- The text of a number that is not zero reads as a numeral of which it is the nearest number. -/
theorem parse?_plain_write {number : Binary64} (nonzero : number.isZero = false) :
    ∃ decimal, Decimal.parse? (plain.write number) = some decimal ∧
      decimal.toQuantity = .finite number := by
  have denotes := Binary64.denotes_shortestDigits .up nonzero
  have reads : ∃ text, plain.write number = (if number.negative then ['-'] else []) ++ text ∧
      Decimal.Reads number.negative text (number.shortestUnits .up) := by
    unfold write
    rw [nonzero, if_neg Bool.false_ne_true]
    refine ⟨_, rfl, ?_⟩
    split
    · exact Decimal.reads_positional denotes number.negative
    · exact Decimal.reads_scientific denotes number.negative
  obtain ⟨text, written, significand, exponent, amounts, read⟩ := reads
  rw [written]
  exact ⟨_, read, Binary64.toQuantity_of_readsBack (Binary64.readsBack_shortestUnits .up number)
    (Binary64.shortestUnits_pos .up nonzero) amounts number.negative⟩

end Layout
end CampusRules
