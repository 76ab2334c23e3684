import CampusRules.Action.Preparation
import CampusRules.Proofs.Json.Place
import CampusRules.Proofs.Template.Pieces

/-!
# Filling in a nested value

A value that is filled in has the same places as before, and what is at each of them is what was
there, filled in. So the lengths of arrays, the keys of objects and the kinds of values stay; a text
is filled in wherever it is, and no other leaf changes. This describes the result completely: a
value with the same places, at which the texts are filled in, is the value filled in.

The induction for the places is over the place, and rests on one step into the value. That for the
whole value is over the value, whose objects have their keys in order, so that what is under each
key tells them apart.
-/

namespace CampusRules.Template

/-- What becomes of a value when it is filled in, apart from what is inside it. -/
inductive Becomes (context : Json) : (before after : Json) → Prop
  | null : Becomes context .null .null
  | bool (value : Bool) : Becomes context (.bool value) (.bool value)
  | number (value : Number) : Becomes context (.number value) (.number value)
  | string (template : String) :
    Becomes context (.string template) (.string (interpolateText template context))
  | array {items others : List Json} (length : items.length = others.length) :
    Becomes context (.array items) (.array others)
  | object {members others : Members} (keys : members.map Prod.fst = others.map Prod.fst) :
    Becomes context (.object members) (.object others)

/-- Items are filled in one by one. -/
theorem interpolateItems_eq_map (context : Json) (items : List Json) :
    interpolateItems context items = items.map (interpolateNested context) := by
  induction items with
  | nil => rfl
  | cons item items inductionHypothesis =>
    rw [interpolateItems, inductionHypothesis, List.map_cons]

/-- Members are filled in one by one, each under its key. -/
theorem interpolateMembers_eq_map (context : Json) (members : Members) :
    interpolateMembers context members = members.map (Prod.map id (interpolateNested context)) := by
  induction members with
  | nil => rfl
  | cons member members inductionHypothesis =>
    rw [interpolateMembers, inductionHypothesis, List.map_cons]
    rfl

/-- The keys of an object stay, in their order. -/
theorem map_fst_interpolateMembers (context : Json) (members : Members) :
    (interpolateMembers context members).map Prod.fst = members.map Prod.fst := by
  rw [interpolateMembers_eq_map, List.map_map]
  exact List.map_congr_left fun _ _ => rfl

/-- The value under a key is the one that was there, filled in by itself. -/
theorem lookup_interpolateMembers (context : Json) (members : Members) (key : String) :
    (interpolateMembers context members).lookup key =
      (members.lookup key).map (interpolateNested context) := by
  induction members with
  | nil => rfl
  | cons member members inductionHypothesis =>
    obtain ⟨other, value⟩ := member
    by_cases same : key = other
    · rw [interpolateMembers, same, List.lookup_cons_self, List.lookup_cons_self, Option.map_some]
    · simpa only [interpolateMembers, List.lookup_cons, beq_false_of_ne same] using
        inductionHypothesis

/-- A step into a value that is filled in leads to what it led to before, filled in. -/
theorem step?_interpolateNested (context value : Json) (step : Json.Step) :
    (interpolateNested context value).step? step =
      (value.step? step).map (interpolateNested context) := by
  cases step with
  | member key =>
    cases value with
    | object members => exact lookup_interpolateMembers context members key
    | null | bool | number | string | array => rfl
  | item index =>
    cases value with
    | array items =>
      change (interpolateItems context items)[index]? = items[index]?.map _
      rw [interpolateItems_eq_map, List.getElem?_map]
    | null | bool | number | string | object => rfl

/-- What is at a place of a value that is filled in is what was there, filled in. -/
theorem at?_interpolateNested (context value : Json) (place : List Json.Step) :
    (interpolateNested context value).at? place =
      (value.at? place).map (interpolateNested context) := by
  induction place generalizing value with
  | nil => rfl
  | cons step place inductionHypothesis =>
    rw [Json.at?, Json.at?, step?_interpolateNested]
    cases value.step? step with
    | none => rfl
    | some inner => exact inductionHypothesis inner

/-- A value becomes what it is when it is filled in. -/
theorem becomes_interpolateNested (context value : Json) :
    Becomes context value (interpolateNested context value) := by
  cases value with
  | null => exact .null
  | bool value => exact .bool value
  | number value => exact .number value
  | string template => exact .string template
  | array items =>
    rw [interpolateNested, interpolateItems_eq_map]
    exact .array (List.length_map _).symm
  | object members => exact .object (map_fst_interpolateMembers context members).symm

/-- What is at each place becomes what is there when the value is filled in. -/
theorem places_interpolateNested (context value : Json) (place : List Json.Step) :
    Option.Rel (Becomes context) (value.at? place)
      ((interpolateNested context value).at? place) := by
  rw [at?_interpolateNested]
  cases value.at? place with
  | none => exact .none
  | some inner => exact .some (becomes_interpolateNested context inner)

/-- A value at each of whose places there is what becomes of what was there is the value filled
in. -/
theorem interpolateNested_eq_of_places {context value other : Json} (ordered : value.Ordered)
    (places : ∀ place, Option.Rel (Becomes context) (value.at? place) (other.at? place)) :
    interpolateNested context value = other := by
  have root : Becomes context value other := by
    obtain ⟨becomes⟩ := places []
    exact becomes
  induction value using Json.induction generalizing other with
  | null | bool | number | string =>
    cases root
    rfl
  | array items inductionHypothesis =>
    cases root with
    | @array _ others _ =>
      have each (index : Nat) :
          Option.Rel (fun inner outer => interpolateNested context inner = outer)
            items[index]? others[index]? := by
        refine Json.rel_imp ?_ (Json.rel_step? places (.item index))
        intro inner outer here behind
        have inside := List.mem_of_getElem? here
        obtain ⟨becomes⟩ := behind []
        exact inductionHypothesis inner inside (Json.orderedItems_iff.mp ordered inner inside)
          behind becomes
      have paired := List.forall₂_map_left_iff.mpr (Json.forall₂_iff_getElem?.mpr each)
      rw [List.forall₂_eq_eq_eq] at paired
      rw [interpolateNested, interpolateItems_eq_map, paired]
  | object members inductionHypothesis =>
    cases root with
    | @object _ others keys =>
      have each (key : String) :
          Option.Rel (fun inner outer => interpolateNested context inner = outer)
            (members.lookup key) (others.lookup key) := by
        refine Json.rel_imp ?_ (Json.rel_step? places (.member key))
        intro inner outer here behind
        have inside := Json.mem_of_lookup here
        obtain ⟨becomes⟩ := behind []
        exact inductionHypothesis (key, inner) inside
          (Json.orderedMembers_iff.mp ordered.2 _ inside) behind becomes
      -- The keys are the same and in order, so the members pair up by what is under each key.
      have paired := (Json.forall₂_iff_lookup ordered.1 (keys ▸ ordered.1)).mpr each
      have same : members.map (Prod.map id (interpolateNested context)) = others := by
        rw [← List.forall₂_eq_eq_eq, List.forall₂_map_left_iff]
        exact paired.imp fun _ _ pair => Prod.ext pair.1 pair.2
      rw [interpolateNested, interpolateMembers_eq_map, same]

/-- A template none of whose paths leads to a value stays as it is. -/
theorem interpolateText_of_unresolved {context : Json} {template : String}
    (unresolved : ∀ path ∈ paths template, Path.get? path context = none) :
    interpolateText template context = template := by
  have stays : ∀ piece ∈ pieces template.toList, piece.render context = piece.source := by
    intro piece member
    cases piece with
    | literal character => rfl
    | token inner =>
      have nowhere := unresolved (tokenPath inner) (List.mem_filterMap.mpr ⟨_, member, rfl⟩)
      simp only [Piece.render, nowhere]
  rw [interpolateText, interpolateChars, List.flatMap_def, List.map_congr_left stays,
    ← List.flatMap_def, source_pieces, String.ofList_toList]

variable {context : Json}

mutual

/-- A value none of whose paths leads to a value stays as it is. -/
theorem interpolateNested_of_unresolved : (value : Json) →
    (∀ path ∈ nestedPaths value, Path.get? path context = none) →
    interpolateNested context value = value
  | .string _, unresolved => congrArg Json.string (interpolateText_of_unresolved unresolved)
  | .array items, unresolved =>
    congrArg Json.array (interpolateItems_of_unresolved items unresolved)
  | .object members, unresolved =>
    congrArg Json.object (interpolateMembers_of_unresolved members unresolved)
  | .null, _ | .bool _, _ | .number _, _ => rfl

/-- Items none of whose paths leads to a value stay as they are. -/
theorem interpolateItems_of_unresolved : (items : List Json) →
    (∀ path ∈ itemPaths items, Path.get? path context = none) →
    interpolateItems context items = items
  | [], _ => rfl
  | item :: items, unresolved => by
    obtain ⟨here, others⟩ := List.forall_mem_append.mp unresolved
    rw [interpolateItems, interpolateNested_of_unresolved item here,
      interpolateItems_of_unresolved items others]

/-- Members none of whose paths leads to a value stay as they are. -/
theorem interpolateMembers_of_unresolved : (members : Members) →
    (∀ path ∈ memberPaths members, Path.get? path context = none) →
    interpolateMembers context members = members
  | [], _ => rfl
  | (key, value) :: members, unresolved => by
    obtain ⟨here, others⟩ := List.forall_mem_append.mp unresolved
    rw [interpolateMembers, interpolateNested_of_unresolved value here,
      interpolateMembers_of_unresolved members others]

end

/-- Filling in a nested value acts on the texts in it only. At every place there is what becomes of
what was there: a text filled in, an array of the same length, an object with the same keys in the
same order, and any other value itself; and where nothing was there is nothing. For a value whose
objects have their keys in order, what is filled in is the only value of which this is true. A value
none of whose paths leads anywhere stays as it is. In a mapping the value under each key is filled
in by itself, and this mapping is what a templated parameter comes to. -/
theorem nested_interpolation_acts_on_texts (context value : Json) :
    (∀ place, Option.Rel (Becomes context) (value.at? place)
      ((interpolateNested context value).at? place)) ∧
    (value.Ordered → ∀ other,
      (∀ place, Option.Rel (Becomes context) (value.at? place) (other.at? place)) →
        interpolateNested context value = other) ∧
    ((∀ path ∈ nestedPaths value, Path.get? path context = none) →
      interpolateNested context value = value) ∧
    ∀ members : Members,
      (interpolateMembers context members).map Prod.fst = members.map Prod.fst ∧
      (∀ key, (interpolateMembers context members).lookup key =
        (members.lookup key).map (interpolateNested context)) ∧
      ∀ (parameters : Members) (name : String),
        parameters.lookup name = some (.object members) →
        Parameters.mapping parameters context name = .ok (interpolateMembers context members) := by
  refine ⟨places_interpolateNested context value, ?_, interpolateNested_of_unresolved value, ?_⟩
  · intro ordered other places
    exact interpolateNested_eq_of_places ordered places
  · intro members
    refine ⟨map_fst_interpolateMembers context members,
      lookup_interpolateMembers context members, ?_⟩
    intro parameters name present
    rw [Parameters.mapping, present]

/-- A context with a student and a tag. -/
def enrolled : Json :=
  .object
    [("student", .object [("email", .string "a@x.com"), ("id", .string "s1")]),
      ("tags", .array [.string "t"])]

/-- What a record is found by, under a key that looks like a token. -/
def sought : Members := [("\x7b\x7bstudent.id\x7d\x7d", .string "no. \x7b\x7bstudent.id\x7d\x7d")]

/-- Parameters with templates at several depths, and with other leaves. -/
def mailing : Members :=
  [("recipients", .array
      [.string "\x7b\x7bstudent.email\x7d\x7d",
        .object [("cc", .string "\x7b\x7btags.0\x7d\x7d")]]),
    ("weight", .number (.ofUInt8 40)), ("where", .object sought)]

/-- These parameters with every template filled in. -/
def mailingFilled : Members :=
  [("recipients", .array [.string "a@x.com", .object [("cc", .string "t")]]),
    ("weight", .number (.ofUInt8 40)),
    ("where", .object [("\x7b\x7bstudent.id\x7d\x7d", .string "no. s1")])]

/-- Every text is filled in and no key is; without a student nothing changes. -/
theorem mailing_is_filled :
    (Json.object mailing).Ordered ∧
    (∀ place, Option.Rel (Becomes enrolled) ((Json.object mailing).at? place)
      ((Json.object mailingFilled).at? place)) ∧
    interpolateNested enrolled (.object mailing) = .object mailingFilled ∧
    (∀ path ∈ nestedPaths (.object mailing), Path.get? path (.object []) = none) ∧
    interpolateNested (.object []) (.object mailing) = .object mailing ∧
    mailing.lookup "where" = some (.object sought) ∧
    (Parameters.mapping mailing enrolled "where").toOption =
      some [("\x7b\x7bstudent.id\x7d\x7d", .string "no. s1")] := by
  have copied : (Json.object [("cc", .string "\x7b\x7btags.0\x7d\x7d")]).Ordered :=
    ⟨List.pairwise_singleton _ _, trivial, trivial⟩
  have single : (Json.object sought).Ordered := ⟨List.pairwise_singleton _ _, trivial, trivial⟩
  have sorted : (mailing.map Prod.fst).Pairwise (· < ·) := by decide +kernel
  have ordered : (Json.object mailing).Ordered :=
    ⟨sorted, ⟨trivial, copied, trivial⟩, trivial, single, trivial⟩
  obtain ⟨places, unique, _, mappings⟩ :=
    nested_interpolation_acts_on_texts enrolled (.object mailing)
  obtain ⟨_, _, unresolved, _⟩ := nested_interpolation_acts_on_texts (.object []) (.object mailing)
  have filled : interpolateNested enrolled (.object mailing) = .object mailingFilled := by
    decide +kernel
  have nowhere : ∀ path ∈ nestedPaths (.object mailing), Path.get? path (.object []) = none := by
    decide +kernel
  have present : mailing.lookup "where" = some (.object sought) := by decide +kernel
  have mapped : interpolateMembers enrolled sought =
      [("\x7b\x7bstudent.id\x7d\x7d", .string "no. s1")] := by decide +kernel
  rw [filled] at places
  refine ⟨ordered, places, unique ordered _ places, nowhere, unresolved nowhere, present, ?_⟩
  rw [(mappings sought).2.2 mailing "where" present, mapped]
  rfl

end CampusRules.Template
