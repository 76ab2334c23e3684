import CampusRules.Text.Blank

/-!
# What trimming leaves

Trimming takes blanks from the ends of a text and nothing else. So it leaves a text without blanks as
it is, a text that begins with something else begins as before, and every character that is not a
blank is still there.
-/

namespace CampusRules.Text

/-- No visible character of the ASCII range is a blank. -/
theorem isBlank_of_visible {character : Char} (low : 0x20 < character.toNat)
    (high : character.toNat < 0x80) : isBlank character = false := by
  simp only [isBlank, Bool.or_eq_false_iff, Bool.and_eq_false_iff, decide_eq_false_iff_not,
    beq_eq_false_iff_ne]
  omega

/-- Dropping from the front drops only what is passed over. -/
theorem mem_dropWhile {passed : Char → Bool} {text : List Char} {character : Char}
    (member : character ∈ text) (stays : passed character = false) :
    character ∈ text.dropWhile passed := by
  rw [← List.takeWhile_append_dropWhile (p := passed) (l := text)] at member
  rcases List.mem_append.mp member with front | behind
  · have drops := List.all_eq_true.mp List.all_takeWhile _ front
    rw [stays] at drops
    cases drops
  · exact behind

/-- A character that is not a blank is not trimmed off. -/
theorem mem_trim {text : List Char} {character : Char} (member : character ∈ text)
    (stays : isBlank character = false) : character ∈ trim text := by
  have front : character ∈ trimStart text := mem_dropWhile member stays
  exact List.mem_reverse.mpr (mem_dropWhile (List.mem_reverse.mpr front) stays)

/-- A text that begins with no blank is trimmed behind its first character. -/
theorem trimEnd_cons {first : Char} (stays : isBlank first = false) (rest : List Char) :
    trimEnd (first :: rest) = first :: trimEnd rest := by
  rw [trimEnd, List.reverse_cons, List.dropWhile_append]
  split
  · rename_i blank
    have none : rest.reverse.dropWhile isBlank = [] := List.isEmpty_iff.mp blank
    rw [trimEnd, none, List.dropWhile_cons_of_neg (by simp [stays])]
    rfl
  · rw [trimEnd, List.reverse_append]
    rfl

/-- A text that begins with no blank is trimmed at its end only. -/
theorem trim_cons {first : Char} (stays : isBlank first = false) (rest : List Char) :
    trim (first :: rest) = first :: trimEnd rest := by
  have front : trimStart (first :: rest) = first :: rest :=
    List.dropWhile_cons_of_neg (by simp [stays])
  rw [trim, front, trimEnd_cons stays]

/-- The end of a text without blanks is not trimmed. -/
theorem trimEnd_of_forall {text : List Char}
    (stay : ∀ character ∈ text, isBlank character = false) : trimEnd text = text := by
  induction text with
  | nil => rfl
  | cons first rest inductionHypothesis =>
    obtain ⟨here, others⟩ := List.forall_mem_cons.mp stay
    rw [trimEnd_cons here, inductionHypothesis others]

/-- A text without blanks is not trimmed. -/
theorem trim_of_forall {text : List Char}
    (stay : ∀ character ∈ text, isBlank character = false) : trim text = text := by
  cases text with
  | nil => rfl
  | cons first rest =>
    obtain ⟨here, others⟩ := List.forall_mem_cons.mp stay
    rw [trim_cons here, trimEnd_of_forall others]

end CampusRules.Text
