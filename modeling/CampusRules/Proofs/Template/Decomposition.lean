import CampusRules.Proofs.Template.Pieces
import Mathlib.Logic.ExistsUnique

/-!
# The decomposition of a template

A template is cut into literals with tokens between them. A cut is sound if every token is one, and
none begins inside a literal, with what follows the literal taken into account. There is exactly one
sound cut of every template, since a literal ends where the first token begins, and a token where
its braces close.

Interpolation fills in this cut: the literals stay, and each token is replaced by the text of the
value that its path leads to, or stays. Nothing else of the template or of a filled-in text matters.
-/

namespace CampusRules.Template

/-- What stands between the braces of a token. -/
def IsInner (inner : List Char) : Prop := inner ≠ [] ∧ '}' ∉ inner

/-- A text begins with a token. -/
def BeginsToken (text : List Char) : Prop :=
  ∃ inner rest, IsInner inner ∧ text = (Piece.token inner).source ++ rest

/-- No token begins inside a literal that `behind` follows. -/
def IsLiteral (literal behind : List Char) : Prop :=
  ∀ position < literal.length, ¬BeginsToken (literal.drop position ++ behind)

/-- A template cut at its tokens: a literal that may be empty, and either nothing more or a token
and what is behind it. -/
inductive Cut where
  | last (literal : List Char)
  | token (literal inner : List Char) (behind : Cut)
  deriving DecidableEq

namespace Cut

/-- The template that was cut. -/
def source : Cut → List Char
  | last literal => literal
  | token literal inner behind => literal ++ (Piece.token inner).source ++ behind.source

/-- Tokens are tokens, and none begins inside a literal. -/
def Sound : Cut → Prop
  | last literal => IsLiteral literal []
  | token literal inner behind =>
    IsLiteral literal ((Piece.token inner).source ++ behind.source) ∧ IsInner inner ∧ behind.Sound

/-- What stands between the braces of the tokens, in order. -/
def inners : Cut → List (List Char)
  | last _ => []
  | token _ inner behind => inner :: behind.inners

end Cut

/-- What a token is replaced by: the text of the value that its path leads to, or itself. -/
def replacement (context : Json) (inner : List Char) : List Char :=
  match Path.get? (String.ofList (Text.trim inner)) context with
  | some value => (Coercion.stringify (some value)).toList
  | none => (Piece.token inner).source

/-- A token contributes its replacement. -/
theorem render_token (context : Json) (inner : List Char) :
    (Piece.token inner).render context = replacement context inner := by
  rw [replacement, Piece.render, tokenPath]
  cases Path.get? (String.ofList (Text.trim inner)) context with
  | none => rfl
  | some value => exact String.toList_ofList.symm

/-- Literals contribute their characters. -/
theorem render_literals (context : Json) (text : List Char) :
    (text.map Piece.literal).flatMap (Piece.render context) = text := by
  induction text with
  | nil => rfl
  | cons character text inductionHypothesis => exact congrArg (character :: ·) inductionHypothesis

/-- A cut with its tokens replaced. -/
def Cut.fill (context : Json) : Cut → List Char
  | last literal => literal
  | token literal inner behind => literal ++ replacement context inner ++ behind.fill context

/-- A token at the start of a text is found. -/
theorem tokenAt?_source_append {inner : List Char} (isInner : IsInner inner) (rest : List Char) :
    tokenAt? ((Piece.token inner).source ++ rest) = some inner := by
  obtain ⟨nonempty, unclosed⟩ := isInner
  have all : ∀ character ∈ inner, (character != '}') = true := by
    intro character member
    simpa using fun same : character = '}' => unclosed (same ▸ member)
  have front : (inner ++ '}' :: '}' :: rest).takeWhile (· != '}') = inner := by
    rw [List.takeWhile_append_of_pos all]
    simp
  have back : (inner ++ '}' :: '}' :: rest).dropWhile (· != '}') = '}' :: '}' :: rest := by
    rw [List.dropWhile_append_of_pos all]
    simp
  simp only [Piece.source, List.cons_append, List.append_assoc, List.nil_append, tokenAt?, front,
    back]

/-- What is found between the braces of a token may stand there. -/
theorem isInner_of_tokenAt? {text inner : List Char} (token : tokenAt? text = some inner) :
    IsInner inner := by
  unfold tokenAt? at token
  split at token
  · rename_i rest
    simp only at token
    split at token
    · cases token
    · rename_i nonempty
      cases token
      refine ⟨nonempty, fun closed => ?_⟩
      have outside := List.all_eq_true.mp List.all_takeWhile _ closed
      simp at outside
    · cases token
  · cases token

/-- Where no token is found none begins. -/
theorem tokenAt?_eq_none_iff {text : List Char} : tokenAt? text = none ↔ ¬BeginsToken text := by
  constructor
  · rintro none ⟨inner, rest, isInner, rfl⟩
    rw [tokenAt?_source_append isInner rest] at none
    cases none
  · intro other
    cases token : tokenAt? text with
    | none => rfl
    | some inner =>
      obtain ⟨rest, same⟩ := tokenAt?_source token
      exact absurd ⟨inner, rest, isInner_of_tokenAt? token, same⟩ other

instance (text : List Char) : Decidable (BeginsToken text) :=
  decidable_of_iff (¬tokenAt? text = none) (by rw [tokenAt?_eq_none_iff, Classical.not_not])

instance (literal behind : List Char) : Decidable (IsLiteral literal behind) :=
  inferInstanceAs (Decidable (∀ position < literal.length, _))

instance (inner : List Char) : Decidable (IsInner inner) :=
  inferInstanceAs (Decidable (inner ≠ [] ∧ '}' ∉ inner))

/-- Whether a cut is sound can be decided literal by literal. -/
instance Cut.decideSound : (cut : Cut) → Decidable cut.Sound
  | last literal => inferInstanceAs (Decidable (IsLiteral literal []))
  | token literal inner behind =>
    have := decideSound behind
    inferInstanceAs (Decidable (IsLiteral literal _ ∧ IsInner inner ∧ behind.Sound))

/-- No token begins inside the empty literal. -/
theorem isLiteral_nil (behind : List Char) : IsLiteral [] behind :=
  fun position inside => absurd inside (Nat.not_lt_zero position)

/-- No token begins inside a literal if none begins with it, nor inside the rest of it. -/
theorem isLiteral_cons {character : Char} {literal behind : List Char} :
    IsLiteral (character :: literal) behind ↔
      ¬BeginsToken (character :: (literal ++ behind)) ∧ IsLiteral literal behind := by
  constructor
  · intro inert
    exact ⟨inert 0 (Nat.succ_pos _),
      fun position inside => inert (position + 1) (Nat.succ_lt_succ inside)⟩
  · rintro ⟨here, behind⟩ (_ | position) inside
    · exact here
    · exact behind position (Nat.lt_of_succ_lt_succ inside)

/-- A literal is scanned character by character. -/
theorem scan_literal {literal behind : List Char} (isLiteral : IsLiteral literal behind) :
    scan 0 (literal ++ behind) = literal.map .literal ++ scan 0 behind := by
  induction literal with
  | nil => rfl
  | cons character literal inductionHypothesis =>
    obtain ⟨here, rest⟩ := isLiteral_cons.mp isLiteral
    rw [List.cons_append, scan, tokenAt?_eq_none_iff.mpr here]
    exact congrArg (Piece.literal character :: ·) (inductionHypothesis rest)

/-- A token is scanned as one piece. -/
theorem scan_token {inner : List Char} (isInner : IsInner inner) (rest : List Char) :
    scan 0 ((Piece.token inner).source ++ rest) = .token inner :: scan 0 rest := by
  have found := tokenAt?_source_append isInner rest
  have covered : (('{' :: inner ++ ['}', '}']) ++ rest).drop (inner.length + 3) = rest := by
    apply List.drop_left'
    simp
  rw [Piece.source, List.cons_append, List.cons_append] at found ⊢
  rw [scan, found]
  dsimp only
  rw [scan_covered, covered]

namespace Cut

/-- The pieces of a cut: the characters of its literals and its tokens. -/
def pieces : Cut → List Piece
  | last literal => literal.map .literal
  | token literal inner behind => literal.map .literal ++ .token inner :: behind.pieces

/-- A cut with more of a literal in front of it. -/
def prepend (text : List Char) : Cut → Cut
  | last literal => last (text ++ literal)
  | token literal inner behind => token (text ++ literal) inner behind

/-- The cut that pieces make: characters in a row are one literal. -/
def ofPieces : List Piece → Cut
  | [] => last []
  | .literal character :: rest => (ofPieces rest).prepend [character]
  | .token inner :: rest => token [] inner (ofPieces rest)

/-- The pieces of a sound cut are those of its template. -/
theorem pieces_source {cut : Cut} (sound : cut.Sound) :
    Template.pieces cut.source = cut.pieces := by
  induction cut with
  | last literal =>
    have scanned := scan_literal sound
    rwa [List.append_nil, scan, List.append_nil] at scanned
  | token literal inner behind inductionHypothesis =>
    obtain ⟨isLiteral, isInner, soundBehind⟩ := sound
    rw [Template.pieces, source, List.append_assoc, scan_literal isLiteral, scan_token isInner]
    exact congrArg (fun rest => literal.map Piece.literal ++ .token inner :: rest)
      (inductionHypothesis soundBehind)

/-- Characters in front of pieces make up the beginning of a literal. -/
theorem ofPieces_literal (text : List Char) (rest : List Piece) :
    ofPieces (text.map .literal ++ rest) = (ofPieces rest).prepend text := by
  induction text with
  | nil => cases cut : ofPieces rest <;> simp [prepend, cut]
  | cons character text inductionHypothesis =>
    rw [List.map_cons, List.cons_append, ofPieces, inductionHypothesis]
    cases ofPieces rest <;> rfl

/-- The pieces of a cut make that cut. -/
theorem ofPieces_pieces (cut : Cut) : ofPieces cut.pieces = cut := by
  induction cut with
  | last literal =>
    have whole := ofPieces_literal literal []
    rw [List.append_nil] at whole
    rw [pieces, whole, ofPieces, prepend, List.append_nil]
  | token literal inner behind inductionHypothesis =>
    rw [pieces, ofPieces_literal, ofPieces, inductionHypothesis, prepend, List.append_nil]

/-- The template of a cut with more in front of it has that in front of it. -/
theorem source_prepend (text : List Char) (cut : Cut) :
    (cut.prepend text).source = text ++ cut.source := by
  cases cut <;> simp [prepend, source]

/-- Pieces make a cut of the text that they make up. -/
theorem source_ofPieces (parts : List Piece) :
    (ofPieces parts).source = parts.flatMap Piece.source := by
  induction parts with
  | nil => rfl
  | cons piece parts inductionHypothesis =>
    cases piece with
    | literal character =>
      rw [ofPieces, source_prepend, inductionHypothesis]
      rfl
    | token inner =>
      rw [ofPieces, source, inductionHypothesis]
      rfl

/-- A character at which no token begins may stand in front of a sound cut. -/
theorem sound_prepend {character : Char} {cut : Cut} (sound : cut.Sound)
    (other : ¬BeginsToken (character :: cut.source)) : (cut.prepend [character]).Sound := by
  cases cut with
  | last literal =>
    refine isLiteral_cons.mpr ⟨?_, sound⟩
    rwa [List.append_nil]
  | token literal inner behind =>
    refine ⟨isLiteral_cons.mpr ⟨?_, sound.1⟩, sound.2⟩
    rwa [← List.append_assoc]

/-- The pieces that a text is scanned into make a sound cut. -/
theorem sound_ofPieces_scan (covered : Nat) (text : List Char) :
    (ofPieces (scan covered text)).Sound := by
  induction text generalizing covered with
  | nil => cases covered <;> exact isLiteral_nil []
  | cons character rest inductionHypothesis =>
    cases covered with
    | succ covered => exact inductionHypothesis covered
    | zero =>
      rw [scan]
      cases token : tokenAt? (character :: rest) with
      | some inner => exact ⟨isLiteral_nil _, isInner_of_tokenAt? token, inductionHypothesis _⟩
      | none =>
        refine sound_prepend (inductionHypothesis 0) ?_
        rw [source_ofPieces, source_scan, List.drop_zero]
        exact tokenAt?_eq_none_iff.mp token

/-- Every template has exactly one sound cut. -/
theorem existsUnique_sound (template : List Char) :
    ∃! cut : Cut, cut.Sound ∧ cut.source = template := by
  refine ⟨ofPieces (Template.pieces template), ⟨sound_ofPieces_scan 0 template, ?_⟩, ?_⟩
  · rw [source_ofPieces, source_pieces]
  · rintro cut ⟨sound, rfl⟩
    rw [pieces_source sound, ofPieces_pieces]

/-- The pieces of a cut are filled in as the cut is. -/
theorem render_pieces (context : Json) (cut : Cut) :
    cut.pieces.flatMap (Piece.render context) = cut.fill context := by
  induction cut with
  | last literal => exact render_literals context literal
  | token literal inner behind inductionHypothesis =>
    rw [pieces, List.flatMap_append, List.flatMap_cons, render_literals, inductionHypothesis,
      render_token, fill, List.append_assoc]

/-- A cut no token of which leads to a value is filled in with nothing. -/
theorem fill_of_unresolved {context : Json} {cut : Cut}
    (unresolved : ∀ inner ∈ cut.inners, Path.get? (tokenPath inner) context = none) :
    cut.fill context = cut.source := by
  induction cut with
  | last literal => rfl
  | token literal inner behind inductionHypothesis =>
    obtain ⟨here, others⟩ := List.forall_mem_cons.mp unresolved
    rw [fill, source, inductionHypothesis others, ← render_token]
    simp only [Piece.render, here]

end Cut

/-- A value without parts that a path could lead to: no array, and no object but the empty one. -/
def IsBare : Json → Prop
  | .array _ => False
  | .object members => members = []
  | _ => True

/-- No path leads anywhere in a bare value. -/
theorem get?_of_isBare {context : Json} (bare : IsBare context) (path : String) :
    Path.get? path context = none := by
  cases split : Path.segments path.toList with
  | nil => exact absurd split (Text.split_ne_nil _ _)
  | cons segment segments =>
    have nowhere : Path.step? context segment = none := by
      cases context with
      | array items => cases bare
      | object members =>
        cases bare
        rfl
      | null | bool | number | string => rfl
    rw [Path.get?, split, Path.follow?, List.foldlM_cons, nowhere]
    rfl

/-- Every template has exactly one decomposition into literals, in which no token begins, and
tokens between them. Whatever the context, filling a template in leaves the literals and replaces
each token by the text of the value that its path leads to, or leaves it too if there is none. So a
template none of whose paths leads to a value stays as it is, as any does in the empty object and in
a value that is neither an array nor an object. -/
theorem interpolation_fills_only_decomposition (template : String) :
    (∃! cut : Cut, cut.Sound ∧ cut.source = template.toList) ∧
    (∀ cut : Cut, cut.Sound → cut.source = template.toList → ∀ context,
      interpolateText template context = String.ofList (cut.fill context) ∧
      ((∀ inner ∈ cut.inners, Path.get? (tokenPath inner) context = none) →
        interpolateText template context = template)) ∧
    ∀ context, IsBare context → interpolateText template context = template := by
  have filled (cut : Cut) (sound : cut.Sound) (same : cut.source = template.toList)
      (context : Json) : interpolateText template context = String.ofList (cut.fill context) := by
    rw [interpolateText, interpolateChars, ← same, Cut.pieces_source sound, Cut.render_pieces]
  have unchanged (cut : Cut) (sound : cut.Sound) (same : cut.source = template.toList)
      (context : Json)
      (unresolved : ∀ inner ∈ cut.inners, Path.get? (tokenPath inner) context = none) :
      interpolateText template context = template := by
    rw [filled cut sound same, Cut.fill_of_unresolved unresolved, same, String.ofList_toList]
  have unique := Cut.existsUnique_sound template.toList
  refine ⟨unique, ?_, ?_⟩
  · intro cut sound same context
    exact ⟨filled cut sound same context, unchanged cut sound same context⟩
  · intro context bare
    obtain ⟨cut, ⟨sound, same⟩, _⟩ := unique
    exact unchanged cut sound same context fun inner _ => get?_of_isBare bare _

/-- A template with braces about its tokens that are not theirs, and with an empty pair of them. -/
def braced : String :=
  "\x7b\x7b\x7ba\x7d\x7d \x7b\x7bb\x7d\x7b\x7b\x7d\x7d\x7b\x7b c \x7d\x7d\x7d"

/-- The decomposition of that template. -/
def bracedCut : Cut :=
  .token [] "\x7ba".toList
    (.token " \x7b\x7bb\x7d\x7b\x7b\x7d\x7d".toList " c ".toList (.last "\x7d".toList))

/-- A context in which only one of its tokens leads to a value. -/
def initials : Json := .object [("a", .string "A"), ("c", .string "C")]

/-- The token that leads to a value is replaced, and nothing else; without values nothing is. -/
theorem braced_is_filled :
    bracedCut.Sound ∧ bracedCut.source = braced.toList ∧
    interpolateText braced initials =
      "\x7b\x7b\x7ba\x7d\x7d \x7b\x7bb\x7d\x7b\x7b\x7d\x7dC\x7d" ∧
    (∀ inner ∈ bracedCut.inners, Path.get? (tokenPath inner) .null = none) ∧
    interpolateText braced .null = braced ∧
    IsBare (.object []) ∧ interpolateText braced (.object []) = braced := by
  obtain ⟨_, decomposed, bare⟩ := interpolation_fills_only_decomposition braced
  have sound : bracedCut.Sound := by decide +kernel
  have same : bracedCut.source = braced.toList := by decide +kernel
  have filled : bracedCut.fill initials =
      "\x7b\x7b\x7ba\x7d\x7d \x7b\x7bb\x7d\x7b\x7b\x7d\x7dC\x7d".toList := by decide +kernel
  have nowhere : ∀ inner ∈ bracedCut.inners, Path.get? (tokenPath inner) .null = none := by
    decide +kernel
  refine ⟨sound, same, ?_, nowhere, (decomposed bracedCut sound same .null).2 nowhere, rfl,
    bare (.object []) rfl⟩
  rw [(decomposed bracedCut sound same initials).1, filled, String.ofList_toList]

end CampusRules.Template
