import CampusRules.Proofs.Json.Tree

/-!
# The values of trees

The value of a tree has ordered objects, since each member is put at its place by key, and it is
nested no deeper than the tree leaves room for. An ordered value comes back from its tree: its
members arrive in key order, so each is put behind those that are there.
-/

namespace CampusRules

namespace Json

/-- A list of values is ordered when each of them is. -/
theorem orderedItems_iff {items : List Json} :
    OrderedItems items ↔ ∀ item ∈ items, item.Ordered := by
  induction items with
  | nil => simp [OrderedItems]
  | cons item items inductionHypothesis => simp [OrderedItems, inductionHypothesis]

/-- The values of members are ordered when each of them is. -/
theorem orderedMembers_iff {members : Members} :
    OrderedMembers members ↔ ∀ member ∈ members, member.2.Ordered := by
  induction members with
  | nil => simp [OrderedMembers]
  | cons member members inductionHypothesis =>
    obtain ⟨key, value⟩ := member
    simp [OrderedMembers, inductionHypothesis]

/-- The depth of a list of values is bounded by what bounds each of them. -/
theorem depthItems_le {items : List Json} {room : Nat} :
    depthItems items ≤ room ↔ ∀ item ∈ items, item.depth ≤ room := by
  induction items with
  | nil => simp [depthItems]
  | cons item items inductionHypothesis =>
    simp [depthItems, inductionHypothesis]

/-- The depth of members is bounded by what bounds the value of each of them. -/
theorem depthMembers_le {members : Members} {room : Nat} :
    depthMembers members ≤ room ↔ ∀ member ∈ members, member.2.depth ≤ room := by
  induction members with
  | nil => simp [depthMembers]
  | cons member members inductionHypothesis =>
    obtain ⟨key, value⟩ := member
    simp [depthMembers, inductionHypothesis]

end Json

namespace Members

/-- A member that is present after another is put there is that one, or was present. -/
theorem mem_put {key : String} {value : Json} {members : Members} {member : String × Json}
    (present : member ∈ members.put key value) : member = (key, value) ∨ member ∈ members := by
  induction members with
  | nil => exact .inl (List.mem_singleton.mp present)
  | cons first rest inductionHypothesis =>
    obtain ⟨other, old⟩ := first
    rw [put] at present
    split at present
    · rcases List.mem_cons.mp present with here | behind
      · exact .inl here
      · exact .inr (List.mem_cons_of_mem _ behind)
    · split at present
      · rcases List.mem_cons.mp present with here | behind
        · exact .inl here
        · exact .inr behind
      · rcases List.mem_cons.mp present with here | behind
        · exact .inr (here ▸ List.mem_cons_self)
        · rcases inductionHypothesis behind with same | earlier
          · exact .inl same
          · exact .inr (List.mem_cons_of_mem _ earlier)

/-- Putting a member at its place keeps the keys in order. -/
theorem pairwise_put (key : String) (value : Json) {members : Members}
    (sorted : (members.map Prod.fst).Pairwise (· < ·)) :
    ((members.put key value).map Prod.fst).Pairwise (· < ·) := by
  induction members with
  | nil => simp [put]
  | cons first rest inductionHypothesis =>
    obtain ⟨other, old⟩ := first
    obtain ⟨below, sortedRest⟩ := List.pairwise_cons.mp sorted
    rw [put]
    split
    · rename_i same
      rw [same]
      exact sorted
    · split
      · rename_i before
        refine List.pairwise_cons.mpr ⟨?_, sorted⟩
        intro later present
        rcases List.mem_cons.mp present with rfl | behind
        · exact before
        · exact String.lt_trans before (below later behind)
      · rename_i different notBefore
        have after : other < key := by
          by_contra notAfter
          exact different (String.le_antisymm notAfter notBefore)
        refine List.pairwise_cons.mpr ⟨?_, inductionHypothesis sortedRest⟩
        intro later present
        obtain ⟨member, stands, rfl⟩ := List.mem_map.mp present
        rcases mem_put stands with rfl | earlier
        · exact after
        · exact below member.1 (List.mem_map_of_mem earlier)

/-- A member whose key comes after all others is put behind them. -/
theorem put_last {key : String} {members : Members} (value : Json)
    (after : ∀ member ∈ members, member.1 < key) :
    members.put key value = members ++ [(key, value)] := by
  induction members with
  | nil => rfl
  | cons first rest inductionHypothesis =>
    obtain ⟨other, old⟩ := first
    have before : other < key := after _ List.mem_cons_self
    have different : key ≠ other := (String.ne_of_lt before).symm
    rw [put, if_neg different, if_neg (String.lt_asymm before),
      inductionHypothesis fun member present => after member (List.mem_cons_of_mem _ present)]
    rfl

end Members

namespace Json.Raw

mutual

/-- The value of a tree is ordered. -/
theorem ordered_value? {tree : Raw} {value : Json} (sound : tree.value? = some value) :
    value.Ordered := by
  match tree with
  | .null | .bool _ | .number _ | .string _ =>
    obtain rfl := Option.some.inj sound
    trivial
  | .array items true =>
    obtain ⟨values, found, rfl⟩ := Option.map_eq_some_iff.mp sound
    exact orderedItems_iff.mpr (ordered_itemValues? found)
  | .object members true =>
    obtain ⟨values, found, rfl⟩ := Option.map_eq_some_iff.mp sound
    have ⟨sorted, all⟩ := ordered_memberValues? found List.Pairwise.nil nofun
    exact ⟨sorted, orderedMembers_iff.mpr all⟩
  | .array _ false | .object _ false | .unfit _ | .broken => cases sound
termination_by structural tree

/-- The values of a list of trees are ordered. -/
theorem ordered_itemValues? {items : List Raw} {values : List Json}
    (sound : itemValues? items = some values) : ∀ value ∈ values, value.Ordered := by
  match items with
  | [] =>
    obtain rfl := Option.some.inj sound
    exact nofun
  | item :: items =>
    simp only [itemValues?, Option.bind_eq_bind, Option.bind_eq_some_iff] at sound
    obtain ⟨first, here, others, behind, same⟩ := sound
    obtain rfl := Option.some.inj same
    intro value present
    rcases List.mem_cons.mp present with rfl | later
    · exact ordered_value? here
    · exact ordered_itemValues? behind value later
termination_by structural items

/-- The members that are put into ordered ones are ordered with them. -/
theorem ordered_memberValues? {members : List (Key × Raw)} {done values : Members}
    (sound : memberValues? members done = some values)
    (sorted : (done.map Prod.fst).Pairwise (· < ·)) (all : ∀ member ∈ done, member.2.Ordered) :
    (values.map Prod.fst).Pairwise (· < ·) ∧ ∀ member ∈ values, member.2.Ordered := by
  match members with
  | [] =>
    obtain rfl := Option.some.inj sound
    exact ⟨sorted, all⟩
  | (.garbled, _) :: _ => cases sound
  | (.text key, tree) :: members =>
    simp only [memberValues?, Option.bind_eq_bind, Option.bind_eq_some_iff] at sound
    obtain ⟨value, here, behind⟩ := sound
    refine ordered_memberValues? behind (Members.pairwise_put key value sorted) ?_
    intro member present
    rcases Members.mem_put present with rfl | earlier
    · exact ordered_value? here
    · exact all member earlier
termination_by structural members

end

mutual

/-- The value of a tree is nested no deeper than the tree leaves room for. -/
theorem depth_value? {tree : Raw} {value : Json} {room : Nat} (within : tree.Within room)
    (sound : tree.value? = some value) : value.depth ≤ room := by
  match tree with
  | .null | .bool _ | .number _ | .string _ =>
    obtain rfl := Option.some.inj sound
    exact Nat.zero_le room
  | .array items true =>
    obtain ⟨values, found, rfl⟩ := Option.map_eq_some_iff.mp sound
    cases room with
    | zero => cases within
    | succ room =>
      exact Nat.succ_le_succ (depthItems_le.mpr (depth_itemValues? within found))
  | .object members true =>
    obtain ⟨values, found, rfl⟩ := Option.map_eq_some_iff.mp sound
    cases room with
    | zero => cases within
    | succ room =>
      exact Nat.succ_le_succ (depthMembers_le.mpr (depth_memberValues? within found nofun))
  | .array _ false | .object _ false | .unfit _ | .broken => cases sound
termination_by structural tree

/-- The values of a list of trees are nested no deeper than the trees leave room for. -/
theorem depth_itemValues? {items : List Raw} {values : List Json} {room : Nat}
    (within : WithinItems items room) (sound : itemValues? items = some values) :
    ∀ value ∈ values, value.depth ≤ room := by
  match items with
  | [] =>
    obtain rfl := Option.some.inj sound
    exact nofun
  | item :: items =>
    simp only [itemValues?, Option.bind_eq_bind, Option.bind_eq_some_iff] at sound
    obtain ⟨first, here, others, behind, same⟩ := sound
    obtain rfl := Option.some.inj same
    intro value present
    rcases List.mem_cons.mp present with rfl | later
    · exact depth_value? within.1 here
    · exact depth_itemValues? within.2 behind value later
termination_by structural items

/-- The members that are put into others are nested no deeper than there is room for. -/
theorem depth_memberValues? {members : List (Key × Raw)} {done values : Members} {room : Nat}
    (within : WithinMembers members room) (sound : memberValues? members done = some values)
    (all : ∀ member ∈ done, member.2.depth ≤ room) :
    ∀ member ∈ values, member.2.depth ≤ room := by
  match members with
  | [] =>
    obtain rfl := Option.some.inj sound
    exact all
  | (.garbled, _) :: _ => cases sound
  | (.text key, tree) :: members =>
    simp only [memberValues?, Option.bind_eq_bind, Option.bind_eq_some_iff] at sound
    obtain ⟨value, here, behind⟩ := sound
    refine depth_memberValues? within.2 behind ?_
    intro member present
    rcases Members.mem_put present with rfl | earlier
    · exact depth_value? within.1 here
    · exact all member earlier
termination_by structural members

end

mutual

/-- An ordered value is the value of its tree. -/
theorem value?_ofValue {value : Json} (ordered : value.Ordered) :
    (ofValue value).value? = some value := by
  match value with
  | .null | .bool _ | .number _ | .string _ => rfl
  | .array items => rw [ofValue, value?, itemValues?_ofItems ordered, Option.map_some]
  | .object members =>
    have read : memberValues? (ofMembers members) [] = some ([] ++ members) :=
      memberValues?_ofMembers ordered.1 ordered.2
    rw [ofValue, value?, read]
    rfl
termination_by structural value

/-- Ordered values are the values of their trees. -/
theorem itemValues?_ofItems {items : List Json} (ordered : OrderedItems items) :
    itemValues? (ofItems items) = some items := by
  match items with
  | [] => rfl
  | item :: items =>
    rw [ofItems, itemValues?, value?_ofValue ordered.1, itemValues?_ofItems ordered.2]
    rfl
termination_by structural items

/-- Members whose keys go on in order are put behind those that are there. -/
theorem memberValues?_ofMembers {members : Members} {done : Members}
    (sorted : ((done ++ members).map Prod.fst).Pairwise (· < ·))
    (ordered : OrderedMembers members) :
    memberValues? (ofMembers members) done = some (done ++ members) := by
  match members with
  | [] => rw [ofMembers, memberValues?, List.append_nil]
  | (key, value) :: members =>
    have after : ∀ member ∈ done, member.1 < key := by
      intro member present
      rw [List.map_append] at sorted
      exact (List.pairwise_append.mp sorted).2.2 _ (List.mem_map_of_mem present) _
        List.mem_cons_self
    have parts : done ++ (key, value) :: members = done ++ [(key, value)] ++ members := by simp
    rw [parts] at sorted ⊢
    rw [ofMembers, memberValues?, value?_ofValue ordered.1]
    simp only [Option.bind_eq_bind, Option.bind_some]
    rw [Members.put_last value after, memberValues?_ofMembers sorted ordered.2]
termination_by structural members

end

/-- An ordered value within the limit comes back from the text that is written for it. -/
theorem parse?_prettyText {value : Json} (ordered : value.Ordered)
    (room : value.depth ≤ nestingLimit) : parse? value.prettyText = some value := by
  rw [parse?, ofText_prettyText room, value?_ofValue ordered]

end Json.Raw
end CampusRules
