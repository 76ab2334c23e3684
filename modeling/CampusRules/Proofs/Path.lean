import CampusRules.Path
import CampusRules.Proofs.Json.Place
import CampusRules.Proofs.Number.Decimal
import CampusRules.Proofs.Text.Split

/-!
# Paths and places

A segment of a path names a step into a value: the one to the member with this key, and the one to
the item at the index that the segment is read as. Which of the two it is depends on the value. A
path leads to what is at a place whose steps its segments name, and nowhere else. So every value
that it leads to is inside the context, and a path behind another is followed from where that one
leads.

The other way round, a place is written as a path by its keys and, in decimal, by its indices. That
path leads to what is at the place, unless a point in a key takes the key apart.
-/

namespace CampusRules

namespace Path

/-- Whether decimal digits stand for an index, which is a word. Zeros in front count for nothing. -/
structure StandsFor (digits : List Char) (index : Nat) : Prop where
  nonempty : digits ≠ []
  decimal : ∀ digit ∈ digits, isDigit digit = true
  value : numeral digits = index
  word : index < UInt64.size

/-- Whether a segment is read as an index: digits stand for it, behind a plus sign or not. -/
def Reads (segment : List Char) (index : Nat) : Prop :=
  ∃ digits, (segment = digits ∨ segment = '+' :: digits) ∧ StandsFor digits index

/-- Digits are accepted as a position exactly if they stand for it. -/
theorem standsFor_iff {digits : List Char} {index : Nat} :
    (if digits ≠ [] ∧ digits.all isDigit ∧ numeral digits < UInt64.size then
      some (numeral digits) else none) = some index ↔ StandsFor digits index := by
  rw [Option.ite_none_right_eq_some, Option.some_inj, List.all_eq_true]
  constructor
  · rintro ⟨⟨nonempty, decimal, word⟩, rfl⟩
    exact ⟨nonempty, decimal, rfl, word⟩
  · rintro ⟨nonempty, decimal, rfl, word⟩
    exact ⟨⟨nonempty, decimal, word⟩, rfl⟩

/-- The position that a segment means is the index that it is read as. -/
theorem position?_eq_some_iff {segment : List Char} {index : Nat} :
    position? segment = some index ↔ Reads segment index := by
  dsimp only [position?]
  -- A plus sign is no digit, so a segment that begins with one is read behind it only.
  split
  · rename_i rest
    rw [standsFor_iff]
    constructor
    · intro stands
      exact ⟨rest, .inr rfl, stands⟩
    · rintro ⟨digits, rfl | same, stands⟩
      · exact absurd (stands.decimal '+' List.mem_cons_self) (by decide)
      · exact (List.cons.inj same).2 ▸ stands
  · rename_i unsigned
    rw [standsFor_iff]
    constructor
    · intro stands
      exact ⟨segment, .inl rfl, stands⟩
    · rintro ⟨digits, rfl | same, stands⟩
      · exact stands
      · exact absurd same (unsigned digits)

end Path

namespace Json.Step

/-- Whether a segment of a path names a step: it is the key of the member, or it is read as the
index of the item. -/
def IsNamedBy : (step : Step) → (segment : List Char) → Prop
  | member key, segment => segment = key.toList
  | item index, segment => Path.Reads segment index

/-- The segment that a step is written as: a key as it is, an index in decimal. -/
def segment : Step → List Char
  | member key => key.toList
  | item index => decimalDigits index

/-- Whether a step can be written as a segment: there is no point in a key, and an index is a word,
as is that of every item that an array has room for. -/
def IsPlain : Step → Prop
  | member key => '.' ∉ key.toList
  | item index => index < UInt64.size

instance (step : Step) : Decidable step.IsPlain :=
  match step with
  | member key => inferInstanceAs (Decidable ('.' ∉ key.toList))
  | item index => inferInstanceAs (Decidable (index < UInt64.size))

/-- There is no point in the segment of a plain step. -/
theorem not_mem_segment {step : Step} (plain : step.IsPlain) : '.' ∉ step.segment := by
  cases step with
  | member key => exact plain
  | item index => exact fun member => absurd (isDigit_decimalDigits member) (by decide)

end Json.Step

namespace Path

/-- A plain step is named by its segment. -/
theorem isNamedBy_segment {step : Json.Step} (plain : step.IsPlain) :
    step.IsNamedBy step.segment := by
  cases step with
  | member key => rfl
  | item index =>
    have decimal : ∀ digit ∈ decimalDigits index, isDigit digit = true :=
      fun _ member => isDigit_decimalDigits member
    exact ⟨decimalDigits index, .inl rfl, decimalDigits_ne_nil index, decimal,
      numeral_decimalDigits index, plain⟩

/-- A segment leads where a step leads that it names. -/
theorem step?_eq_some_iff {current value : Json} {segment : List Char} :
    step? current segment = some value ↔
      ∃ step : Json.Step, step.IsNamedBy segment ∧ current.step? step = some value := by
  constructor
  · intro leads
    cases current with
    | object members =>
      refine ⟨.member (String.ofList segment), ?_, leads⟩
      exact String.toList_ofList.symm
    | array items =>
      obtain ⟨index, named, found⟩ := Option.bind_eq_some_iff.mp leads
      exact ⟨.item index, position?_eq_some_iff.mp named, found⟩
    | null | bool | number | string => cases leads
  · rintro ⟨step, named, leads⟩
    cases step with
    | member key =>
      obtain rfl : segment = key.toList := named
      cases current with
      | object members =>
        rw [step?, String.ofList_toList]
        exact leads
      | null | bool | number | string | array => cases leads
    | item index =>
      cases current with
      | array items =>
        rw [step?, position?_eq_some_iff.mpr named]
        exact leads
      | null | bool | number | string | object => cases leads

/-- Segments lead to what is at a place whose steps they name. -/
theorem follow?_eq_some_iff {current value : Json} {segments : List (List Char)} :
    follow? current segments = some value ↔
      ∃ place, List.Forall₂ Json.Step.IsNamedBy place segments ∧
        current.at? place = some value := by
  induction segments generalizing current with
  | nil =>
    simp only [List.forall₂_nil_right_iff, exists_eq_left]
    exact Iff.rfl
  | cons segment segments inductionHypothesis =>
    have split : follow? current (segment :: segments) =
        (step? current segment).bind (follow? · segments) := List.foldlM_cons
    rw [split, Option.bind_eq_some_iff]
    constructor
    · rintro ⟨inner, leads, behind⟩
      obtain ⟨step, named, found⟩ := step?_eq_some_iff.mp leads
      obtain ⟨place, others, reached⟩ := inductionHypothesis.mp behind
      refine ⟨step :: place, .cons named others, ?_⟩
      rw [Json.at?, found]
      exact reached
    · rintro ⟨_, _ | ⟨named, others⟩, reached⟩
      obtain ⟨inner, found, reached⟩ := Option.bind_eq_some_iff.mp reached
      exact ⟨inner, step?_eq_some_iff.mpr ⟨_, named, found⟩,
        inductionHypothesis.mpr ⟨_, others, reached⟩⟩

/-- A path leads to what is at a place inside the context whose steps its segments name: there is
at least one, since every path has a segment. -/
theorem get?_eq_some_iff {path : String} {context value : Json} :
    get? path context = some value ↔
      ∃ place, place ≠ [] ∧ List.Forall₂ Json.Step.IsNamedBy place (segments path.toList) ∧
        context.at? place = some value := by
  rw [get?, follow?_eq_some_iff]
  constructor
  · rintro ⟨place, named, found⟩
    refine ⟨place, ?_, named, found⟩
    rintro rfl
    exact Text.split_ne_nil _ _ (List.forall₂_nil_left_iff.mp named)
  · rintro ⟨place, _, named, found⟩
    exact ⟨place, named, found⟩

/-- A path that goes on behind a point is followed on from where its front leads. -/
theorem get?_append (front back : String) (context : Json) :
    get? (front ++ "." ++ back) context = (get? front context).bind (get? back) := by
  have parts : segments (front ++ "." ++ back).toList =
      segments front.toList ++ segments back.toList := by
    have point : ".".toList = ['.'] := rfl
    rw [String.toList_append, String.toList_append, point, List.append_assoc, List.singleton_append]
    exact Text.split_append '.' front.toList back.toList
  rw [get?, parts, follow?_append]
  rfl

/-- A place as a path: the segments of its steps with points between them. -/
def ofPlace (place : List Json.Step) : String :=
  String.ofList (['.'].intercalate (place.map Json.Step.segment))

/-- The segments of a place that is written as a path are those of its steps. -/
theorem segments_ofPlace {place : List Json.Step} (nonempty : place ≠ [])
    (plain : ∀ step ∈ place, step.IsPlain) :
    segments (ofPlace place).toList = place.map Json.Step.segment := by
  rw [ofPlace, String.toList_ofList]
  refine Text.split_intercalate (mt List.map_eq_nil_iff.mp nonempty) fun part member => ?_
  obtain ⟨step, inside, rfl⟩ := List.mem_map.mp member
  exact Json.Step.not_mem_segment (plain step inside)

/-- A place that is written as a path is found by it. -/
theorem get?_ofPlace {place : List Json.Step} {context value : Json} (nonempty : place ≠ [])
    (plain : ∀ step ∈ place, step.IsPlain) (found : context.at? place = some value) :
    get? (ofPlace place) context = some value := by
  refine get?_eq_some_iff.mpr ⟨place, nonempty, ?_, found⟩
  rw [segments_ofPlace nonempty plain, List.forall₂_map_right_iff, List.forall₂_same]
  exact fun step inside => isNamedBy_segment (plain step inside)

/-- Paths compose: what a path leads to behind a point is what its back leads to from where its
front leads, and nothing if that is nowhere. They reach every place: one of at least one step, with
no point in a key, is found by the path that it is written as. And they reach nothing else: a path
leads to exactly what is at a place inside the context whose steps its segments name. -/
theorem paths_compose_and_reach_places (context : Json) :
    (∀ front back : String,
      get? (front ++ "." ++ back) context = (get? front context).bind (get? back)) ∧
    (∀ (place : List Json.Step) (value : Json), place ≠ [] → (∀ step ∈ place, step.IsPlain) →
      context.at? place = some value → get? (ofPlace place) context = some value) ∧
    ∀ (path : String) (value : Json), get? path context = some value ↔
      ∃ place : List Json.Step, place ≠ [] ∧
        List.Forall₂ Json.Step.IsNamedBy place (segments path.toList) ∧
        context.at? place = some value := by
  refine ⟨fun front back => get?_append front back context, ?_, ?_⟩
  · intro place value nonempty plain found
    exact get?_ofPlace nonempty plain found
  · intro path value
    exact get?_eq_some_iff

/-- A context with an empty key, a key that reads like a number, and arrays inside objects. -/
def cabinet : Json :=
  .object
    [("", .object
      [("0", .array [.null, .array [.string "deed", .object [("+1", .bool true)]]])])]

/-- The way to the last drawer of that context. -/
def drawer : List Json.Step := [.member "", .member "0", .item 1, .item 1, .member "+1"]

/-- The path of that place begins with a point and finds what is there, as does one in two parts,
and one that writes an index with a sign and zeros. -/
theorem drawer_is_found :
    drawer ≠ [] ∧ (∀ step ∈ drawer, step.IsPlain) ∧ cabinet.at? drawer = some (.bool true) ∧
    ofPlace drawer = ".0.1.1.+1" ∧ get? (ofPlace drawer) cabinet = some (.bool true) ∧
    (get? ".0" cabinet).bind (get? "+01.1.+1") = some (.bool true) ∧
    get? ".0.+01.1.+1" cabinet = some (.bool true) := by
  obtain ⟨composes, reaches, _⟩ := paths_compose_and_reach_places cabinet
  have nonempty : drawer ≠ [] := List.cons_ne_nil _ _
  have plain : ∀ step ∈ drawer, step.IsPlain := by decide +kernel
  have found : cabinet.at? drawer = some (.bool true) := by decide +kernel
  have parts : (get? ".0" cabinet).bind (get? "+01.1.+1") = some (.bool true) := by decide +kernel
  have written : ofPlace drawer = ".0.1.1.+1" := by decide +kernel
  refine ⟨nonempty, plain, found, written, reaches drawer _ nonempty plain found, parts, ?_⟩
  exact (composes ".0" "+01.1.+1").trans parts

end Path
end CampusRules
