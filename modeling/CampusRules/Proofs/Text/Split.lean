import CampusRules.Text.Split

/-!
# The parts of joined texts

A text without the mark is one part, and a mark between two texts keeps their parts apart. So parts
that have no mark in them come back from the text that joins them by it, if there is at least one.
-/

namespace CampusRules.Text

/-- A text without the mark is one part. -/
theorem split_of_absent {mark : Char} {text : List Char} (absent : ∀ character ∈ text,
    character ≠ mark) : split mark text = [text] := by
  induction text with
  | nil => rfl
  | cons first rest inductionHypothesis =>
    obtain ⟨here, behind⟩ := List.forall_mem_cons.mp absent
    simp only [split, if_neg here, inductionHypothesis behind]

/-- Two texts with a mark between them have the parts of the one and then those of the other. -/
theorem split_append (mark : Char) (front back : List Char) :
    split mark (front ++ mark :: back) = split mark front ++ split mark back := by
  induction front with
  | nil => simp [split]
  | cons first rest inductionHypothesis =>
    by_cases isMark : first = mark
    · simp only [List.cons_append, split, if_pos isMark, inductionHypothesis]
    · obtain ⟨part, parts, same⟩ := List.exists_cons_of_ne_nil (split_ne_nil mark rest)
      simp only [List.cons_append, split, if_neg isMark, inductionHypothesis, same]

/-- Parts without the mark come back from the text that joins them. -/
theorem split_intercalate {mark : Char} {parts : List (List Char)} (nonempty : parts ≠ [])
    (absent : ∀ part ∈ parts, mark ∉ part) : split mark ([mark].intercalate parts) = parts := by
  induction parts with
  | nil => exact absurd rfl nonempty
  | cons first rest inductionHypothesis =>
    obtain ⟨here, others⟩ := List.forall_mem_cons.mp absent
    have alone : split mark first = [first] :=
      split_of_absent fun character member same => here (same ▸ member)
    cases rest with
    | nil => rw [List.intercalate_singleton, alone]
    | cons second more =>
      have behind := inductionHypothesis (List.cons_ne_nil second more) others
      rw [List.intercalate_cons_cons, List.append_assoc, List.singleton_append, split_append, alone,
        behind, List.singleton_append]

end CampusRules.Text
