import CampusRules.Json.Raw
import CampusRules.Proofs.Json.Lexeme

/-!
# The trees that are made out of text

The builder keeps its open containers on a stack. A written value that is nested no deeper than
the stack leaves room for is put on it whole, so the tree of its text is that value. Whatever the
text, nothing in a tree that is not marked unfit is nested deeper than there is room for: the
marks are made container by container, by the height of the stack.
-/

namespace CampusRules.Json.Raw

/-- The builder goes on from where a step has led. -/
def resume (reached : Raw ⊕ (List Frame × Stage)) (rest : List Lexeme) : Raw × List Lexeme :=
  match reached with
  | .inl finished => (finished, rest)
  | .inr (stack, stage) => build stack stage rest

/-- A lexeme that has a place is one step of the builder. -/
theorem build_step {stack : List Frame} {stage : Stage} {lexeme : Lexeme}
    {reached : Raw ⊕ (List Frame × Stage)} (taken : step stack stage lexeme = some reached)
    (rest : List Lexeme) : build stack stage (lexeme :: rest) = resume reached rest := by
  rw [build, taken]
  rcases reached with finished | ⟨stack, stage⟩
  · rfl
  · rfl

/-- Where a first item may stand, a value is read as anywhere else: it does not begin with a
closing bracket. -/
theorem build_firstItem (value : Json) (stack : List Frame) (rest : List Lexeme) :
    build stack .firstItem (Lexeme.ofValue value ++ rest) =
      build stack .value (Lexeme.ofValue value ++ rest) := by
  have opens : ∃ lexeme behind, Lexeme.ofValue value = lexeme :: behind ∧
      lexeme ≠ .closeArray := by
    rcases value with _ | value | value | value | (_ | ⟨first, items⟩) |
      (_ | ⟨⟨key, value⟩, members⟩)
    all_goals exact ⟨_, _, rfl, nofun⟩
  obtain ⟨lexeme, behind, begins, other⟩ := opens
  rw [begins, List.cons_append, build, build]
  simp only [step, if_neg other]

/-- A container within the limit is not marked. -/
theorem limitNesting_of_lt {outer : List Frame} (room : outer.length < nestingLimit)
    (container : Raw) : limitNesting outer container = container := if_pos room

mutual

/-- A written value that the stack leaves room for is put on it. -/
theorem build_ofValue (value : Json) (stack : List Frame) (rest : List Lexeme)
    (room : stack.length + value.depth ≤ nestingLimit) :
    build stack .value (Lexeme.ofValue value ++ rest) =
      resume (accept (ofValue value) stack) rest := by
  match value with
  | .null => exact build_step rfl rest
  | .bool value => exact build_step rfl rest
  | .number value => exact build_step rfl rest
  | .string value => exact build_step rfl rest
  | .array [] =>
    have inside : stack.length < nestingLimit := by
      simp only [depth, depthItems] at room
      omega
    have closed : step (.items [] :: stack) .firstItem .closeArray =
        some (accept (limitNesting stack (.array [] true)) stack) := rfl
    rw [limitNesting_of_lt inside] at closed
    exact build_step closed rest
  | .array (first :: items) =>
    simp only [depth, depthItems] at room
    have opened : step stack .value .openArray = some (.inr (.items [] :: stack, .firstItem)) :=
      rfl
    have firstRoom : (Frame.items [] :: stack).length + first.depth ≤ nestingLimit := by
      rw [List.length_cons]
      omega
    simp only [Lexeme.ofValue, List.append_assoc, List.cons_append, List.nil_append]
    rw [build_step opened, resume, build_firstItem, build_ofValue first _ _ firstRoom]
    exact build_ofItems items [ofValue first] stack rest (by omega)
  | .object [] =>
    have inside : stack.length < nestingLimit := by
      simp only [depth, depthMembers] at room
      omega
    have closed : step (.members [] none :: stack) .firstKey .closeObject =
        some (accept (limitNesting stack (.object [] true)) stack) := rfl
    rw [limitNesting_of_lt inside] at closed
    exact build_step closed rest
  | .object ((key, value) :: members) =>
    simp only [depth, depthMembers] at room
    have opened : step stack .value .openObject =
        some (.inr (.members [] none :: stack, .firstKey)) := rfl
    have keyed : step (.members [] none :: stack) .firstKey (.string (some key)) =
        some (.inr (.members [] (some (.text key)) :: stack, .colon)) := rfl
    have parted : step (.members [] (some (.text key)) :: stack) .colon .colon =
        some (.inr (.members [] (some (.text key)) :: stack, .value)) := rfl
    have valueRoom :
        (Frame.members [] (some (.text key)) :: stack).length + value.depth ≤ nestingLimit := by
      rw [List.length_cons]
      omega
    simp only [Lexeme.ofValue, List.append_assoc, List.cons_append, List.nil_append]
    rw [build_step opened, resume, build_step keyed, resume, build_step parted, resume,
      build_ofValue value _ _ valueRoom]
    exact build_ofMembers members [(.text key, ofValue value)] stack rest (by omega)
termination_by structural value

/-- Written items that the stack leaves room for are put behind those that are there. -/
theorem build_ofItems (items : List Json) (done : List Raw) (outer : List Frame)
    (rest : List Lexeme) (room : outer.length + (depthItems items + 1) ≤ nestingLimit) :
    build (.items done :: outer) .afterItem (Lexeme.ofItems items ++ .closeArray :: rest) =
      resume (accept (.array (done.reverse ++ ofItems items) true) outer) rest := by
  match items with
  | [] =>
    have closed : step (.items done :: outer) .afterItem .closeArray =
        some (accept (limitNesting outer (.array done.reverse true)) outer) := rfl
    rw [limitNesting_of_lt (by omega)] at closed
    rw [ofItems, List.append_nil]
    exact build_step closed rest
  | item :: items =>
    simp only [depthItems] at room
    have parted : step (.items done :: outer) .afterItem .comma =
        some (.inr (.items done :: outer, .value)) := rfl
    have itemRoom : (Frame.items done :: outer).length + item.depth ≤ nestingLimit := by
      rw [List.length_cons]
      omega
    have behind := build_ofItems items (ofValue item :: done) outer rest (by omega)
    simp only [Lexeme.ofItems, List.append_assoc, List.cons_append]
    rw [build_step parted, resume, build_ofValue item _ _ itemRoom]
    rw [List.reverse_cons, List.append_assoc] at behind
    exact behind
termination_by structural items

/-- Written members that the stack leaves room for are put behind those that are there. -/
theorem build_ofMembers (members : List (String × Json)) (done : List (Key × Raw))
    (outer : List Frame) (rest : List Lexeme)
    (room : outer.length + (depthMembers members + 1) ≤ nestingLimit) :
    build (.members done none :: outer) .afterMember
        (Lexeme.ofMembers members ++ .closeObject :: rest) =
      resume (accept (.object (done.reverse ++ ofMembers members) true) outer) rest := by
  match members with
  | [] =>
    have closed : step (.members done none :: outer) .afterMember .closeObject =
        some (accept (limitNesting outer (.object done.reverse true)) outer) := rfl
    rw [limitNesting_of_lt (by omega)] at closed
    rw [ofMembers, List.append_nil]
    exact build_step closed rest
  | (key, value) :: members =>
    simp only [depthMembers] at room
    have parted : step (.members done none :: outer) .afterMember .comma =
        some (.inr (.members done none :: outer, .nextKey)) := rfl
    have keyed : step (.members done none :: outer) .nextKey (.string (some key)) =
        some (.inr (.members done (some (.text key)) :: outer, .colon)) := rfl
    have colon : step (.members done (some (.text key)) :: outer) .colon .colon =
        some (.inr (.members done (some (.text key)) :: outer, .value)) := rfl
    have valueRoom :
        (Frame.members done (some (.text key)) :: outer).length + value.depth ≤ nestingLimit := by
      rw [List.length_cons]
      omega
    have behind := build_ofMembers members ((.text key, ofValue value) :: done) outer rest
      (by omega)
    simp only [Lexeme.ofMembers, List.append_assoc, List.cons_append]
    rw [build_step parted, resume, build_step keyed, resume, build_step colon, resume,
      build_ofValue value _ _ valueRoom]
    rw [List.reverse_cons, List.append_assoc] at behind
    exact behind
termination_by structural members

end

/-- A text with the lexemes of a value within the limit has the tree of that value. -/
theorem ofText_of_lexemes {text : String} {value : Json}
    (written : lexemes text.toList = Lexeme.ofValue value) (room : value.depth ≤ nestingLimit) :
    ofText text = ofValue value := by
  have built := build_ofValue value [] [] (by simpa using room)
  rw [List.append_nil] at built
  rw [ofText, written, built]
  rfl

/-- The tree of a text that is written for a value within the limit is that value. -/
theorem ofText_prettyText {value : Json} (room : value.depth ≤ nestingLimit) :
    ofText value.prettyText = ofValue value :=
  ofText_of_lexemes (lexemes_prettyText value) room

/-- The tree of a text that is written on one line for a value within the limit is that value. -/
theorem ofText_compactText {value : Json} (room : value.depth ≤ nestingLimit) :
    ofText value.compactText = ofValue value :=
  ofText_of_lexemes (lexemes_compactText value) room

mutual

/-- Whether nothing in a tree that can be used is nested deeper than there is room for. -/
def Within : Raw → Nat → Prop
  | .array _ _, 0 => False
  | .array items _, room + 1 => WithinItems items room
  | .object _ _, 0 => False
  | .object members _, room + 1 => WithinMembers members room
  | _, _ => True
termination_by structural tree => tree

/-- Whether there is room for every tree of a list. -/
def WithinItems : List Raw → Nat → Prop
  | [], _ => True
  | item :: items, room => item.Within room ∧ WithinItems items room
termination_by structural trees => trees

/-- Whether there is room for every raw member. -/
def WithinMembers : List (Key × Raw) → Nat → Prop
  | [], _ => True
  | (_, tree) :: members, room => tree.Within room ∧ WithinMembers members room
termination_by structural members => members

end

/-- There is room for a list of trees when there is room for each of them. -/
theorem withinItems_iff {items : List Raw} {room : Nat} :
    WithinItems items room ↔ ∀ item ∈ items, item.Within room := by
  induction items with
  | nil => simp [WithinItems]
  | cons item items inductionHypothesis => simp [WithinItems, inductionHypothesis]

/-- There is room for raw members when there is room for the tree of each of them. -/
theorem withinMembers_iff {members : List (Key × Raw)} {room : Nat} :
    WithinMembers members room ↔ ∀ member ∈ members, member.2.Within room := by
  induction members with
  | nil => simp [WithinMembers]
  | cons member members inductionHypothesis =>
    obtain ⟨key, tree⟩ := member
    simp [WithinMembers, inductionHypothesis]

/-- Whether there is room for the contents that an open container has so far. -/
def Frame.Holds (room : Nat) : Frame → Prop
  | .items done => ∀ item ∈ done, item.Within room
  | .members done _ => ∀ member ∈ done, member.2.Within room

/-- Whether each open container holds what its place on the stack leaves room for. -/
def Holds : List Frame → Prop
  | [] => True
  | frame :: outer => frame.Holds (nestingLimit - (outer.length + 1)) ∧ Holds outer

/-- Whether a step has led to a tree within the limit, or to a stack that holds no more than
there is room for. -/
def Sound : Raw ⊕ (List Frame × Stage) → Prop
  | .inl finished => finished.Within nestingLimit
  | .inr (stack, _) => Holds stack

/-- An array of what there is room for is within its place, or marked. -/
theorem within_limitNesting_array {outer : List Frame} {items : List Raw}
    (room : ∀ item ∈ items, item.Within (nestingLimit - (outer.length + 1))) (ended : Bool) :
    (limitNesting outer (.array items ended)).Within (nestingLimit - outer.length) := by
  unfold limitNesting
  by_cases inside : outer.length < nestingLimit
  · have place : nestingLimit - outer.length = nestingLimit - (outer.length + 1) + 1 := by omega
    rw [if_pos inside, place]
    exact withinItems_iff.mpr room
  · rw [if_neg inside]
    trivial

/-- An object of what there is room for is within its place, or marked. -/
theorem within_limitNesting_object {outer : List Frame} {members : List (Key × Raw)}
    (room : ∀ member ∈ members, member.2.Within (nestingLimit - (outer.length + 1)))
    (ended : Bool) :
    (limitNesting outer (.object members ended)).Within (nestingLimit - outer.length) := by
  unfold limitNesting
  by_cases inside : outer.length < nestingLimit
  · have place : nestingLimit - outer.length = nestingLimit - (outer.length + 1) + 1 := by omega
    rw [if_pos inside, place]
    exact withinMembers_iff.mpr room
  · rw [if_neg inside]
    trivial

/-- Accepting a value that there is room for keeps what the stack holds within bounds. -/
theorem sound_accept {value : Raw} {stack : List Frame}
    (room : value.Within (nestingLimit - stack.length)) (holds : Holds stack) :
    Sound (accept value stack) := by
  rcases stack with _ | ⟨done | ⟨done, waiting⟩, outer⟩
  · exact room
  · refine ⟨?_, holds.2⟩
    intro item member
    rcases List.mem_cons.mp member with rfl | earlier
    · exact room
    · exact holds.1 item earlier
  · refine ⟨?_, holds.2⟩
    intro entry member
    rcases List.mem_append.mp member with latest | earlier
    · obtain ⟨key, _, rfl⟩ := List.mem_map.mp latest
      exact room
    · exact holds.1 entry earlier

/-- Closing a container keeps what the stack holds within bounds. -/
theorem sound_close {stack : List Frame} {reached : Raw ⊕ (List Frame × Stage)}
    (closed : close stack = some reached) (holds : Holds stack) : Sound reached := by
  rcases stack with _ | ⟨done | ⟨done, waiting⟩, outer⟩
  · cases closed
  · obtain rfl := Option.some.inj closed
    refine sound_accept (within_limitNesting_array ?_ true) holds.2
    intro item member
    exact holds.1 item (List.mem_reverse.mp member)
  · obtain rfl := Option.some.inj closed
    refine sound_accept (within_limitNesting_object ?_ true) holds.2
    intro entry member
    exact holds.1 entry (List.mem_reverse.mp member)

/-- There is always room for a value that is a lexeme by itself. -/
theorem within_scalar {lexeme : Lexeme} {value : Raw} (scalar : scalar? lexeme = some value)
    (room : Nat) : value.Within room := by
  unfold scalar? at scalar
  split at scalar
  all_goals first
    | obtain rfl := Option.some.inj scalar
      trivial
    | cases scalar

/-- Beginning a value keeps what the stack holds within bounds. -/
theorem sound_beginValue {lexeme : Lexeme} {stack : List Frame}
    {reached : Raw ⊕ (List Frame × Stage)} (begun : beginValue lexeme stack = some reached)
    (holds : Holds stack) : Sound reached := by
  unfold beginValue at begun
  split at begun
  · obtain rfl := Option.some.inj begun
    exact ⟨nofun, holds⟩
  · obtain rfl := Option.some.inj begun
    exact ⟨nofun, holds⟩
  · obtain ⟨value, scalar, rfl⟩ := Option.map_eq_some_iff.mp begun
    exact sound_accept (within_scalar scalar _) holds

/-- Beginning a member keeps what the stack holds within bounds. -/
theorem sound_beginMember {lexeme : Lexeme} {stack : List Frame}
    {reached : Raw ⊕ (List Frame × Stage)} (begun : beginMember lexeme stack = some reached)
    (holds : Holds stack) : Sound reached := by
  have taken : ∀ key, takeKey key stack = some reached → Sound reached := by
    intro key taken
    unfold takeKey at taken
    split at taken
    · obtain rfl := Option.some.inj taken
      exact holds
    · cases taken
  unfold beginMember at begun
  split at begun
  · exact taken _ begun
  · exact taken _ begun
  · cases begun

/-- One step of the builder keeps what the stack holds within bounds. -/
theorem sound_step {stack : List Frame} {stage : Stage} {lexeme : Lexeme}
    {reached : Raw ⊕ (List Frame × Stage)} (taken : step stack stage lexeme = some reached)
    (holds : Holds stack) : Sound reached := by
  have stays : ∀ next, some (.inr (stack, next)) = some reached → Sound reached := by
    intro next same
    obtain rfl := Option.some.inj same
    exact holds
  cases stage with
  | value => exact sound_beginValue taken holds
  | firstItem =>
    rw [step] at taken
    split at taken
    · exact sound_close taken holds
    · exact sound_beginValue taken holds
  | firstKey =>
    rw [step] at taken
    split at taken
    · exact sound_close taken holds
    · exact sound_beginMember taken holds
  | nextKey => exact sound_beginMember taken holds
  | colon =>
    rw [step] at taken
    split at taken
    · exact stays _ taken
    · cases taken
  | afterItem | afterMember =>
    rw [step] at taken
    split at taken
    · exact sound_close taken holds
    · split at taken
      · exact stays _ taken
      · cases taken

/-- What is abandoned is within the limit if the stack holds no more than there is room for. -/
theorem within_abandon {inner : Option Raw} {stack : List Frame}
    (room : ∀ value ∈ inner, value.Within (nestingLimit - stack.length)) (holds : Holds stack) :
    (abandon inner stack).Within nestingLimit := by
  induction stack generalizing inner with
  | nil =>
    cases inner with
    | none => trivial
    | some value => exact room value rfl
  | cons frame outer inductionHypothesis =>
    cases frame with
    | items done =>
      refine inductionHypothesis ?_ holds.2
      rintro _ ⟨⟩
      refine within_limitNesting_array ?_ false
      intro item member
      rcases List.mem_append.mp member with earlier | latest
      · exact holds.1 item (List.mem_reverse.mp earlier)
      · exact room item (Option.mem_toList.mp latest)
    | members done waiting =>
      refine inductionHypothesis ?_ holds.2
      rintro _ ⟨⟩
      refine within_limitNesting_object ?_ false
      intro entry member
      rcases List.mem_append.mp member with earlier | latest
      · exact holds.1 entry (List.mem_reverse.mp earlier)
      · obtain ⟨key, _, rfl⟩ := List.mem_map.mp latest
        cases inner with
        | none => trivial
        | some value => exact room value rfl

/-- Whatever the lexemes, the tree built of them is within the limit. -/
theorem within_build {stack : List Frame} {stage : Stage} (lexemes : List Lexeme)
    (holds : Holds stack) : (build stack stage lexemes).1.Within nestingLimit := by
  induction lexemes generalizing stack stage with
  | nil => exact within_abandon nofun holds
  | cons lexeme rest inductionHypothesis =>
    rw [build]
    split
    · exact within_abandon nofun holds
    · rename_i finished taken
      exact sound_step taken holds
    · rename_i nextStack nextStage taken
      exact inductionHypothesis (sound_step taken holds)

/-- The tree of any text is within the limit. -/
theorem within_ofText (text : String) : (ofText text).Within nestingLimit := by
  have built : (build [] .value (lexemes text.toList)).1.Within nestingLimit :=
    within_build _ trivial
  unfold ofText
  split
  · rename_i tree same
    rw [same] at built
    exact built
  · trivial

end CampusRules.Json.Raw
