/-!
# Splitting and searching texts

A text is split at a mark into the parts between its occurrences. There is always
one part more than there are marks, so the empty text is one empty part, and the
parts joined by marks are the text again.
-/

namespace CampusRules.Text

/-- The parts of a text between the occurrences of a mark. -/
def split (mark : Char) : List Char → List (List Char)
  | [] => [[]]
  | character :: rest =>
    if character = mark then [] :: split mark rest
    else match split mark rest with
      | first :: more => (character :: first) :: more
      | [] => [[character]]

/-- A text has a part. -/
theorem split_ne_nil (mark : Char) (text : List Char) : split mark text ≠ [] := by
  induction text with
  | nil => simp [split]
  | cons character rest _ =>
    simp only [split]
    split
    · simp
    · split <;> simp

/-- Joining the parts of a text by the mark gives the text back. -/
theorem intercalate_split (mark : Char) (text : List Char) :
    [mark].intercalate (split mark text) = text := by
  induction text with
  | nil => rfl
  | cons character rest inductionHypothesis =>
    cases parts : split mark rest with
    | nil => exact absurd parts (split_ne_nil mark rest)
    | cons first more =>
      rw [parts] at inductionHypothesis
      by_cases isMark : character = mark
      · simp only [split, isMark, if_true, parts]
        simpa [List.intercalate] using inductionHypothesis
      · cases more with
        | nil =>
          simp only [split, isMark, if_false, parts]
          simpa [List.intercalate] using inductionHypothesis
        | cons second others =>
          simp only [split, isMark, if_false, parts]
          simpa [List.intercalate] using inductionHypothesis

/-- Whether a text contains another. -/
def occurs (part : List Char) : List Char → Bool
  | [] => part.isEmpty
  | character :: rest => part.isPrefixOf (character :: rest) || occurs part rest

end CampusRules.Text
