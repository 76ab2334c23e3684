import CampusRules.Proofs.Coercion.Radix

/-!
# Arrays and their texts

An array of several items has commas in its text, and no text with a comma stands for a number. The
empty array is zero, as the empty text is. An array of one item counts as the text of that item,
which is the text of the array as well: only `null` reads differently by itself than in a list.
-/

namespace CampusRules.Coercion

/-- What announces a radix is a zero with a letter behind it. -/
theorem of_radix? {text digits : List Char} {radix : Nat}
    (announced : radix? text = some (radix, digits)) :
    ∃ letter bits, (letter, bits) ∈ prefixes ∧ text = '0' :: letter :: digits := by
  unfold radix? at announced
  split at announced
  · cases announced
    exact ⟨'x', 4, by decide, rfl⟩
  · cases announced
    exact ⟨'X', 4, by decide, rfl⟩
  · cases announced
    exact ⟨'o', 3, by decide, rfl⟩
  · cases announced
    exact ⟨'O', 3, by decide, rfl⟩
  · cases announced
    exact ⟨'b', 1, by decide, rfl⟩
  · cases announced
    exact ⟨'B', 1, by decide, rfl⟩
  · cases announced

/-- A trimmed text with a comma stands for no number. -/
theorem trimmedNumber_of_comma {text : List Char} (comma : ',' ∈ text) :
    trimmedNumber text = .undefined := by
  cases announced : radix? text with
  | some parts =>
    obtain ⟨letter, bits, announces, rfl⟩ := of_radix? announced
    have each : ∀ entry ∈ prefixes, entry.1 ≠ ',' := by decide
    have among : ',' ∈ parts.2 := by simpa [(each _ announces).symm] using comma
    rw [trimmedNumber_literal announces, radixValue?_eq_none_iff.mpr ⟨',', among, rfl⟩]
    exact ite_self _
  | none =>
    have noWord : text ∉ words := by
      have each : ∀ word ∈ words, ',' ∉ word := by decide
      exact fun member => each text member comma
    have noNumeral : Decimal.parse? text = none := by
      cases parsed : Decimal.parse? text with
      | none => rfl
      | some decimal => cases Decimal.isNumeric_of_parse? parsed comma
    rw [trimmedNumber_of_not_mem noWord, announced, noNumeral]
    exact ite_self _

/-- A text with a comma stands for no number. -/
theorem textNumber_of_comma {text : List Char} (comma : ',' ∈ text) :
    textNumber text = .undefined :=
  trimmedNumber_of_comma (Text.mem_trim comma (by decide))

/-- What is not `null` reads by itself as it does in a list. -/
theorem text_eq_itemText {value : Json} (present : value ≠ .null) : value.text = value.itemText := by
  cases value <;> first | rfl | exact absurd rfl present

/-- An array counts as its text does, unless it is the array of `null` alone: `null` by itself is a
word, and in a list it is empty. -/
theorem array_counts_as_text_iff (items : List Json) :
    toNumber (some (.array items)) =
        toNumber (some (.string (stringify (some (.array items))))) ↔
      items ≠ [.null] := by
  rw [stringify, toNumber_ofList]
  match items with
  | [] => exact iff_of_true rfl (by decide)
  | [single] =>
    have alone : (Json.array [single]).text = single.itemText := List.append_nil _
    rw [alone, toNumber]
    by_cases absent : single = .null
    · subst absent
      exact iff_of_false (by decide +kernel) (fun differs => differs rfl)
    · rw [text_eq_itemText absent]
      exact iff_of_true rfl (fun same => absent (List.singleton_inj.mp same))
  | first :: second :: rest =>
    have comma : ',' ∈ (Json.array (first :: second :: rest)).text :=
      List.mem_append_right _ List.mem_cons_self
    rw [textNumber_of_comma comma]
    exact iff_of_true rfl (by simp)

/-- The array of `null` alone counts as nothing, and its text, which is empty, as zero. -/
theorem array_of_null_counts_apart :
    stringify (some (.array [.null])) = "" ∧
      toNumber (some (.array [.null])) = .undefined ∧
      toNumber (some (.string "")) = .finite Binary64.zero := by
  decide +kernel

end CampusRules.Coercion
