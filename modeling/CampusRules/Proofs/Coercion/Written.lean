import CampusRules.Proofs.Coercion.Numeral
import CampusRules.Proofs.Number.Comparison
import CampusRules.Proofs.Number.Plain

/-!
# Numbers that were written out

A number that was turned into text counts as that number again, in whichever form it was written.
An integer comes to the same rounding both ways, and a float comes back as it was. Only the sign of
zero is not written.
-/

namespace CampusRules.Coercion

/-- The text of an integer counts as the integer does, rounded once. -/
theorem textNumber_integerText (value : Int) : textNumber (integerText value) = .ofInt value := by
  have signed : integerText value =
      (if decide (value < 0) = true then ['-'] else []) ++ decimalDigits value.natAbs := by
    unfold integerText
    by_cases negative : value < 0
    · simp [negative]
    · simp [negative]
  rw [signed, textNumber_decimalDigits, Quantity.ofInt]

/-- The text of a float counts as a number that is equal to it. -/
theorem textNumber_plain_write (number : Binary64) :
    (textNumber (Layout.plain.write number)).equals (.finite number) = true := by
  cases zero : number.isZero with
  | true =>
    have written : Layout.plain.write number = decimalDigits 0 := by
      rw [Layout.write, if_pos zero]
      cases number.negative <;> rfl
    have value : number.value = 0 := by
      have none := (Binary64.isZero_iff_units number).mp zero
      rw [Binary64.value, none]
      exact ite_self _
    have read : textNumber (decimalDigits 0) = .finite Binary64.zero :=
      textNumber_decimalDigits false 0
    rw [written, read]
    exact (Binary64.equals_iff _ _).mpr value.symm
  | false =>
    obtain ⟨decimal, read, nearest⟩ := Layout.parse?_plain_write zero
    rw [textNumber_of_parse? read, nearest]
    exact (Quantity.equals_self_iff _).mpr Quantity.noConfusion

/-- The text of a number counts as a number that is equal to it. -/
theorem textNumber_number (number : Number) :
    (textNumber (Json.number number).text).equals number.quantity = true := by
  cases number with
  | integer value fits =>
    have read : textNumber (Json.number (.integer value fits)).text = .ofInt value :=
      textNumber_integerText value
    rw [read, Number.quantity]
    exact (Quantity.equals_self_iff _).mpr (Quantity.ofUnits_ne_undefined _ _ _)
  | float value => exact textNumber_plain_write value

end CampusRules.Coercion
