import CampusRules.Proofs.Template.Decomposition

/-!
# Filling in again

What is filled in stands between pieces of literals that were apart before. If it is not empty and
has no braces it makes no token with them: a token that began in a literal would have begun there
before, since up to the first closing brace the token in its place has no fewer characters to offer,
and no closing brace begins what is filled in. So the tokens of a template that is filled in are
those that led to no value, and filling it in again changes nothing.
-/

namespace CampusRules.Template

/-- A text that is not empty and has no braces. -/
def IsPlain (text : List Char) : Prop := text ≠ [] ∧ '{' ∉ text ∧ '}' ∉ text

/-- A path leads to no value, or to one whose text is plain. -/
def LeadsToPlain (context : Json) (path : String) : Prop :=
  ∀ value, Path.get? path context = some value → IsPlain value.text

/-- No token begins inside a text without opening braces. -/
theorem isLiteral_of_not_mem {text : List Char} (closed : '{' ∉ text) (behind : List Char) :
    IsLiteral text behind := by
  induction text with
  | nil => exact isLiteral_nil behind
  | cons character text inductionHypothesis =>
    rw [List.mem_cons, not_or] at closed
    refine isLiteral_cons.mpr ⟨?_, inductionHypothesis closed.2⟩
    rintro ⟨inner, rest, _, same⟩
    exact closed.1 (List.cons.inj same).1.symm

/-- What a token offers in the place of what follows part of a literal: if the literal is not empty
and without a closing brace up to there, a token begins. -/
theorem beginsToken_of_opening {part inner : List Char} (isInner : IsInner inner)
    (unclosed : '}' ∉ part) (opens : part = ['{'] ∨ ∃ more, part = '{' :: '{' :: more)
    (rest : List Char) : BeginsToken (part ++ ((Piece.token inner).source ++ rest)) := by
  rcases opens with rfl | ⟨more, rfl⟩
  · refine ⟨'{' :: inner, rest, ⟨List.cons_ne_nil _ _, ?_⟩, by simp [Piece.source]⟩
    simpa using isInner.2
  · refine ⟨more ++ '{' :: '{' :: inner, rest, ⟨by simp, ?_⟩, by simp [Piece.source]⟩
    simp only [List.mem_cons, not_or] at unclosed
    simp [unclosed.2.2, isInner.2]

/-- Part of a token, up to where it goes on with something else than a closing brace, has no
closing brace and opens with the opening braces. -/
theorem opening_of_source {part more inner : List Char} (isInner : IsInner inner)
    (nonempty : part ≠ []) (further : more ≠ []) (other : more.head? ≠ some '}')
    (whole : (Piece.token inner).source = part ++ more) :
    '}' ∉ part ∧ (part = ['{'] ∨ ∃ rest, part = '{' :: '{' :: rest) := by
  have split : ('{' :: '{' :: inner) ++ ['}', '}'] = part ++ more := whole
  -- A part that ends between or behind the closing braces would be followed by one, or by nothing.
  rcases List.append_eq_append_iff.mp split with ⟨closing, _, ends⟩ | ⟨closing, begins, _⟩
  · have last : ∀ character ∈ more, character = '}' := by
      intro character member
      have among : character ∈ ['}', '}'] := ends ▸ List.mem_append_right _ member
      simpa using among
    cases more with
    | nil => exact absurd rfl further
    | cons first more =>
      rw [last first List.mem_cons_self] at other
      exact absurd rfl other
  · constructor
    · intro member
      have among : '}' ∈ '{' :: '{' :: inner := begins ▸ List.mem_append_left _ member
      simp [isInner.2] at among
    · rcases part with _ | ⟨first, _ | ⟨second, rest⟩⟩
      · exact absurd rfl nonempty
      · exact .inl (by rw [(List.cons.inj begins).1])
      · obtain ⟨rfl, behind⟩ := List.cons.inj begins
        obtain ⟨rfl, _⟩ := List.cons.inj behind
        exact .inr ⟨rest, rfl⟩

/-- A token that begins in a part of a literal begins there with another token in the place of
what follows, unless this follows with a closing brace. -/
theorem beginsToken_of_replaced {part behind inner : List Char} (isInner : IsInner inner)
    (nonempty : part ≠ []) (other : behind.head? ≠ some '}') (begins : BeginsToken (part ++ behind))
    (rest : List Char) : BeginsToken (part ++ ((Piece.token inner).source ++ rest)) := by
  obtain ⟨found, left, isFound, same⟩ := begins
  -- The token that begins there reaches beyond the part, or it ends inside and stays.
  rcases List.append_eq_append_iff.mp same with ⟨more, whole, rfl⟩ | ⟨more, rfl, _⟩
  · cases more with
    | nil =>
      rw [List.append_nil] at whole
      exact ⟨found, _, isFound, by rw [whole]⟩
    | cons first more =>
      obtain ⟨unclosed, opens⟩ :=
        opening_of_source isFound nonempty (List.cons_ne_nil first more) other whole
      exact beginsToken_of_opening isInner unclosed opens rest
  · exact ⟨found, more ++ ((Piece.token inner).source ++ rest), isFound, List.append_assoc ..⟩

/-- A literal in front of a token stays one in front of what does not begin with a closing brace. -/
theorem IsLiteral.replace {literal inner behind rest : List Char}
    (isLiteral : IsLiteral literal ((Piece.token inner).source ++ rest)) (isInner : IsInner inner)
    (other : behind.head? ≠ some '}') : IsLiteral literal behind := by
  intro position inside begins
  refine isLiteral position inside (beginsToken_of_replaced isInner ?_ other begins rest)
  simpa using inside

/-- The pieces that a piece makes when it is filled in: the characters of a value, or itself. -/
def Piece.settle (context : Json) : Piece → List Piece
  | literal character => [.literal character]
  | token inner =>
    match Path.get? (tokenPath inner) context with
    | some value => value.text.map .literal
    | none => [.token inner]

/-- What is filled in is not filled in again: it stays, as does what leads to no value. -/
theorem render_settle (context : Json) (piece : Piece) :
    (piece.settle context).flatMap (Piece.render context) = piece.render context := by
  cases piece with
  | literal character => rfl
  | token inner =>
    rw [Piece.settle]
    cases found : Path.get? (tokenPath inner) context with
    | none => exact List.append_nil _
    | some value =>
      dsimp only
      rw [render_literals]
      simp only [Piece.render, found]

/-- A token that leads to no value or to a plain one is replaced by what does not begin with a
closing brace. -/
theorem head?_replacement {context : Json} {inner : List Char}
    (plain : LeadsToPlain context (tokenPath inner)) (behind : List Char) :
    (replacement context inner ++ behind).head? ≠ some '}' := by
  rw [← render_token, Piece.render]
  cases found : Path.get? (tokenPath inner) context with
  | none => simp [Piece.source]
  | some value =>
    obtain ⟨nonempty, _, unclosed⟩ := plain value found
    change (value.text ++ behind).head? ≠ some '}'
    cases text : value.text with
    | nil => exact absurd text nonempty
    | cons first rest =>
      rintro ⟨⟩
      exact unclosed (text ▸ List.mem_cons_self)

/-- A replacement is scanned as the pieces that its token makes, whatever follows it. -/
theorem scan_replacement {context : Json} {inner : List Char} (isInner : IsInner inner)
    (plain : LeadsToPlain context (tokenPath inner)) (behind : List Char) :
    scan 0 (replacement context inner ++ behind) =
      (Piece.token inner).settle context ++ scan 0 behind := by
  rw [← render_token, Piece.render, Piece.settle]
  cases found : Path.get? (tokenPath inner) context with
  | none => exact scan_token isInner behind
  | some value => exact scan_literal (isLiteral_of_not_mem (plain value found).2.1 behind)

/-- Literals stay what they are. -/
theorem settle_literals (context : Json) (text : List Char) :
    (text.map Piece.literal).flatMap (Piece.settle context) = text.map .literal := by
  induction text with
  | nil => rfl
  | cons character text inductionHypothesis =>
    exact congrArg (Piece.literal character :: ·) inductionHypothesis

/-- The pieces of a cut that is filled in are those that its own pieces make. -/
theorem Cut.pieces_fill {context : Json} {cut : Cut} (sound : cut.Sound)
    (plain : ∀ inner ∈ cut.inners, LeadsToPlain context (tokenPath inner)) :
    Template.pieces (cut.fill context) = cut.pieces.flatMap (Piece.settle context) := by
  induction cut with
  | last literal =>
    rw [pieces, settle_literals]
    exact pieces_source sound
  | token literal inner behind inductionHypothesis =>
    obtain ⟨isLiteral, isInner, soundBehind⟩ := sound
    obtain ⟨here, others⟩ := List.forall_mem_cons.mp plain
    have after := inductionHypothesis soundBehind others
    have apart := isLiteral.replace isInner (head?_replacement here (behind.fill context))
    rw [Template.pieces] at after ⊢
    rw [fill, List.append_assoc, scan_literal apart, scan_replacement isInner here, after, pieces,
      List.flatMap_append, List.flatMap_cons, settle_literals]

/-- The paths of a template are those of the tokens of its cut. -/
theorem Cut.filterMap_pieces (cut : Cut) :
    cut.pieces.filterMap Piece.path? = cut.inners.map tokenPath := by
  have literals (text : List Char) : (text.map Piece.literal).filterMap Piece.path? = [] := by
    simp [List.filterMap_map, Function.comp_def, Piece.path?]
  induction cut with
  | last literal => exact literals literal
  | token literal inner behind inductionHypothesis =>
    rw [pieces, List.filterMap_append, literals, List.filterMap_cons, inductionHypothesis]
    rfl

variable {context : Json}

/-- A template whose paths lead to plain texts is filled in once and for all. -/
theorem interpolateText_again {template : String}
    (plain : ∀ path ∈ paths template, LeadsToPlain context path) :
    interpolateText (interpolateText template context) context =
      interpolateText template context := by
  obtain ⟨cut, ⟨sound, same⟩, _⟩ := Cut.existsUnique_sound template.toList
  have named : paths template = cut.inners.map tokenPath := by
    rw [paths, ← same, Cut.pieces_source sound, Cut.filterMap_pieces]
  have inners : ∀ inner ∈ cut.inners, LeadsToPlain context (tokenPath inner) :=
    fun inner member => plain _ (named ▸ List.mem_map_of_mem member)
  have filled : interpolateChars template.toList context = cut.fill context := by
    rw [interpolateChars, ← same, Cut.pieces_source sound, Cut.render_pieces]
  rw [interpolateText, interpolateText, String.toList_ofList, filled, interpolateChars,
    Cut.pieces_fill sound inners, List.flatMap_assoc]
  simp only [render_settle, Cut.render_pieces]

mutual

/-- A value is filled in once and for all, at any depth. -/
theorem interpolateNested_again : (value : Json) →
    (∀ path ∈ nestedPaths value, LeadsToPlain context path) →
    interpolateNested context (interpolateNested context value) = interpolateNested context value
  | .string _, plain => congrArg Json.string (interpolateText_again plain)
  | .array items, plain => congrArg Json.array (interpolateItems_again items plain)
  | .object members, plain => congrArg Json.object (interpolateMembers_again members plain)
  | .null, _ | .bool _, _ | .number _, _ => rfl

/-- The items of a list are filled in once and for all. -/
theorem interpolateItems_again : (items : List Json) →
    (∀ path ∈ itemPaths items, LeadsToPlain context path) →
    interpolateItems context (interpolateItems context items) = interpolateItems context items
  | [], _ => rfl
  | item :: items, plain => by
    obtain ⟨here, others⟩ := List.forall_mem_append.mp plain
    rw [interpolateItems, interpolateItems, interpolateNested_again item here,
      interpolateItems_again items others]

/-- The members of an object are filled in once and for all. -/
theorem interpolateMembers_again : (members : Members) →
    (∀ path ∈ memberPaths members, LeadsToPlain context path) →
    interpolateMembers context (interpolateMembers context members) =
      interpolateMembers context members
  | [], _ => rfl
  | (key, value) :: members, plain => by
    obtain ⟨here, others⟩ := List.forall_mem_append.mp plain
    rw [interpolateMembers, interpolateMembers, interpolateNested_again value here,
      interpolateMembers_again members others]

end

/-- Filling in again changes nothing: neither a template all of whose tokens lead to no value or to
one with a plain text, nor a value all of whose templates are of this kind, at any depth. -/
theorem interpolation_is_idempotent (context : Json) :
    (∀ template, (∀ path ∈ paths template, LeadsToPlain context path) →
      interpolateText (interpolateText template context) context =
        interpolateText template context) ∧
    ∀ value, (∀ path ∈ nestedPaths value, LeadsToPlain context path) →
      interpolateNested context (interpolateNested context value) =
        interpolateNested context value :=
  ⟨fun _ => interpolateText_again, interpolateNested_again⟩

instance (text : List Char) : Decidable (IsPlain text) :=
  inferInstanceAs (Decidable (text ≠ [] ∧ '{' ∉ text ∧ '}' ∉ text))

instance (context : Json) (path : String) : Decidable (LeadsToPlain context path) :=
  inferInstanceAs (Decidable (∀ value ∈ Path.get? path context, IsPlain value.text))

/-- The braces about a token make no token with what replaces it, so the template stays as it was
filled in, by itself and inside a value. -/
theorem braced_is_filled_once :
    (∀ path ∈ paths braced, LeadsToPlain initials path) ∧
    (∀ path ∈ nestedPaths (.object [("note", .array [.string braced])]),
      LeadsToPlain initials path) ∧
    interpolateText (interpolateText braced initials) initials =
      "\x7b\x7b\x7ba\x7d\x7d \x7b\x7bb\x7d\x7b\x7b\x7d\x7dC\x7d" ∧
    interpolateNested initials
        (interpolateNested initials (.object [("note", .array [.string braced])])) =
      .object [("note", .array [.string
        "\x7b\x7b\x7ba\x7d\x7d \x7b\x7bb\x7d\x7b\x7b\x7d\x7dC\x7d"])] := by
  obtain ⟨texts, values⟩ := interpolation_is_idempotent initials
  have plain : ∀ path ∈ paths braced, LeadsToPlain initials path := by decide +kernel
  have nested : ∀ path ∈ nestedPaths (.object [("note", .array [.string braced])]),
      LeadsToPlain initials path := by decide +kernel
  refine ⟨plain, nested, ?_, ?_⟩
  · rw [texts braced plain]
    decide +kernel
  · rw [values _ nested]
    decide +kernel

end CampusRules.Template
