import CampusRules.Coercion
import CampusRules.Proofs.Number.Numeral
import CampusRules.Proofs.Text.Blank

/-!
# Texts that are numerals

A text is looked at in several ways before it is read as a numeral: blanks are trimmed, the empty
text, the infinities, what begins with a letter and what has a radix in front are taken apart. No
numeral is met by any of these, so a text that reads as a numeral coerces to the nearest number of
that decimal.
-/

namespace CampusRules.Coercion

/-- The texts that count as a number without being numerals: nothing at all, and the infinities. -/
def words : List (List Char) :=
  [[], "Infinity".toList, "+Infinity".toList, "-Infinity".toList]

/-- Any other text counts as the literal or the numeral that it is, unless a letter is in front. -/
theorem trimmedNumber_of_not_mem {text : List Char} (other : text ∉ words) :
    trimmedNumber text =
      if beginsWithLetter text then .undefined
      else match radix? text with
        | some (_, []) => .undefined
        | some (radix, digits) => radixNumeral radix (.finite Binary64.zero) digits
        | none => match Decimal.parse? text with
          | some decimal => decimal.toQuantity
          | none => .undefined := by
  simp only [words, List.mem_cons, List.not_mem_nil, or_false, not_or] at other
  obtain ⟨nonempty, infinite, signed, below⟩ := other
  have unnamed : ¬(text = "Infinity".toList ∨ text = "+Infinity".toList) :=
    not_or.mpr ⟨infinite, signed⟩
  rw [trimmedNumber]
  exact (if_neg nonempty).trans ((if_neg unnamed).trans (if_neg below))

/-- No digit is a letter. -/
theorem isAlpha_of_isDigit {character : Char} (digit : isDigit character = true) :
    character.isAlpha = false := by
  obtain ⟨_, high⟩ := (isDigit_iff character).mp digit
  have below : character.toNat ≤ 57 := UInt32.le_iff_toNat_le.mp high
  rw [Bool.eq_false_iff]
  intro letter
  rcases Bool.or_eq_true_iff.mp letter with upper | lower
  · have least := (of_decide_eq_true upper).1
    have above : 65 ≤ character.toNat := UInt32.le_iff_toNat_le.mp least
    omega
  · have least := of_decide_eq_true (Bool.and_eq_true_iff.mp lower).1
    have above : 97 ≤ character.toNat := UInt32.le_iff_toNat_le.mp least
    omega

/-- What begins behind its sign with no letter and no further sign begins with no letter. -/
theorem beginsWithLetter_of_splitSign {text rest : List Char} {first : Char}
    (unsigned : (Decimal.splitSign text).2 = first :: rest) (noPlus : first ≠ '+')
    (noMinus : first ≠ '-') (noLetter : first.isAlpha = false) : beginsWithLetter text = false := by
  have signless : text.dropWhile (fun character => character == '+' || character == '-') =
      first :: rest := by
    rcases Decimal.splitSign_cases text with same | ⟨sign, plusMinus, same⟩
    · rw [← same, unsigned, List.dropWhile_cons_of_neg (by simp [noPlus, noMinus])]
    · rw [same, unsigned, List.dropWhile_cons_of_pos (by rcases plusMinus with rfl | rfl <;> rfl),
        List.dropWhile_cons_of_neg (by simp [noPlus, noMinus])]
  unfold beginsWithLetter
  rw [signless]
  exact noLetter

/-- A text with a radix in front reads as no numeral. -/
theorem parse?_of_radix? {text digits : List Char} {radix : Nat}
    (announced : radix? text = some (radix, digits)) : Decimal.parse? text = none := by
  unfold radix? at announced
  split at announced <;> first | rfl | cases announced

/-- What reads as a numeral is met by no other case. -/
theorem trimmedNumber_of_parse? {text : List Char} {decimal : Decimal}
    (parsed : Decimal.parse? text = some decimal) :
    trimmedNumber text = decimal.toQuantity := by
  obtain ⟨⟨first, rest, unsigned, begins⟩, _⟩ := Decimal.of_parse? parsed
  have noWord : text ∉ words := by
    have each : ∀ word ∈ words, Decimal.parse? word = none := by decide
    intro member
    rw [each text member] at parsed
    cases parsed
  have noLetter : beginsWithLetter text = false := by
    rcases begins with digit | rfl
    · refine beginsWithLetter_of_splitSign unsigned ?_ ?_ (isAlpha_of_isDigit digit) <;>
      · rintro rfl
        cases digit
    · exact beginsWithLetter_of_splitSign unsigned (by decide) (by decide) rfl
  have noRadix : radix? text = none := by
    cases announced : radix? text with
    | none => rfl
    | some parts =>
      rw [parse?_of_radix? announced] at parsed
      cases parsed
  rw [trimmedNumber_of_not_mem noWord, noLetter, if_neg Bool.false_ne_true, noRadix, parsed]

/-- A numeric character is not a blank. -/
theorem isBlank_of_isNumeric {character : Char} (numeric : Decimal.isNumeric character = true) :
    Text.isBlank character = false := by
  rcases Bool.or_eq_true_iff.mp numeric with digit | mark
  · obtain ⟨low, high⟩ := (isDigit_iff character).mp digit
    have above : 48 ≤ character.toNat := UInt32.le_iff_toNat_le.mp low
    have below : character.toNat ≤ 57 := UInt32.le_iff_toNat_le.mp high
    exact Text.isBlank_of_visible (by omega) (by omega)
  · have among : character ∈ ['+', '-', '.', 'e', 'E'] := List.contains_iff_mem.mp mark
    simp only [List.mem_cons, List.not_mem_nil, or_false] at among
    rcases among with rfl | rfl | rfl | rfl | rfl <;> rfl

/-- A text that reads as a numeral coerces to the nearest number of that decimal. -/
theorem textNumber_of_parse? {text : List Char} {decimal : Decimal}
    (parsed : Decimal.parse? text = some decimal) : textNumber text = decimal.toQuantity := by
  have trimmed : Text.trim text = text := Text.trim_of_forall fun _ member =>
    isBlank_of_isNumeric (Decimal.isNumeric_of_parse? parsed member)
  rw [textNumber, trimmed, trimmedNumber_of_parse? parsed]

/-- A string counts as its text does. -/
theorem toNumber_ofList (text : List Char) :
    toNumber (some (.string (String.ofList text))) = textNumber text := by
  rw [toNumber, String.toList_ofList]

/-- The decimal text of a whole number with a sign coerces to the nearest number. -/
theorem textNumber_decimalDigits (negative : Bool) (number : Nat) :
    textNumber ((if negative then ['-'] else []) ++ decimalDigits number) =
      .ofNat negative number := by
  rw [textNumber_of_parse? (Decimal.parse?_decimalDigits negative number),
    Decimal.toQuantity_whole]

end CampusRules.Coercion
