import CampusRules.Template

/-!
# The pieces of a template

The pieces of a template make up the template again: every character belongs to one piece, a token
to the braces that open and close it. The paths in its tokens are what a template names.
-/

namespace CampusRules.Template

/-- The path that a piece of a template names. -/
def Piece.path? : Piece → Option String
  | literal _ => none
  | token inner => some (tokenPath inner)

/-- The paths that a template names. -/
def paths (template : String) : List String := (pieces template.toList).filterMap Piece.path?

/-- The paths that a value names which is a template. -/
def valuePaths : Json → List String
  | .string template => paths template
  | _ => []

mutual

/-- The paths that the templates in a value name, at any depth. -/
def nestedPaths : Json → List String
  | .string template => paths template
  | .array items => itemPaths items
  | .object members => memberPaths members
  | _ => []
termination_by structural value => value

/-- The paths that the templates in a list of values name. -/
def itemPaths : List Json → List String
  | [] => []
  | item :: items => nestedPaths item ++ itemPaths items
termination_by structural items => items

/-- The paths that the templates in a list of members name. -/
def memberPaths : List (String × Json) → List String
  | [] => []
  | (_, value) :: members => nestedPaths value ++ memberPaths members
termination_by structural members => members

end

/-- A token at the start of a text is what the text begins with. -/
theorem tokenAt?_source {text inner : List Char} (token : tokenAt? text = some inner) :
    ∃ rest, text = (Piece.token inner).source ++ rest := by
  unfold tokenAt? at token
  split at token
  · rename_i rest
    have whole : rest.takeWhile (· != '}') ++ rest.dropWhile (· != '}') = rest :=
      List.takeWhile_append_dropWhile
    simp only at token
    split at token
    · cases token
    · rename_i behind closed _
      cases token
      rw [closed] at whole
      exact ⟨behind, by simp [Piece.source, whole]⟩
    · cases token
  · cases token

/-- The pieces of a text make up what is left of it behind the last token. -/
theorem source_scan (covered : Nat) (text : List Char) :
    (scan covered text).flatMap Piece.source = text.drop covered := by
  fun_induction scan covered text with
  | case1 => simp
  | case2 covered character rest inductionHypothesis => simpa using inductionHypothesis
  | case3 character rest inner token inductionHypothesis =>
    obtain ⟨behind, same⟩ := tokenAt?_source token
    have left : rest.drop (inner.length + 3) = behind := by
      have dropped := congrArg (List.drop (inner.length + 4)) same
      simpa [Piece.source] using dropped
    rw [List.flatMap_cons, inductionHypothesis, left, List.drop_zero, same]
  | case4 character rest token inductionHypothesis =>
    rw [List.flatMap_cons, inductionHypothesis]
    rfl

/-- The pieces of a template make up the template. -/
theorem source_pieces (template : List Char) :
    (pieces template).flatMap Piece.source = template :=
  source_scan 0 template

end CampusRules.Template
