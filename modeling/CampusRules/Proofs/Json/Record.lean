import CampusRules.Json.Record
import CampusRules.Proofs.Json.Value

/-!
# Reading records

What a reader takes out of a record stands inside it, so it is nested less deep by one. A record
that is written with distinct, known keys, each value of which passes the check of its field, is
read with all of its fields.
-/

namespace CampusRules.Json

/-- A sequence of steps that succeeds has a first step that does. -/
theorem ok_of_bind {ε α β : Type} {first : Except ε α} {next : α → Except ε β} {result : β}
    (done : (first >>= next) = .ok result) :
    ∃ value, first = .ok value ∧ next value = .ok result := by
  cases first with
  | error refusal => cases done
  | ok value => exact ⟨value, rfl, done⟩

/-- A sequence of steps goes on with what the first one gives. -/
theorem ok_bind {ε α β : Type} (value : α) (next : α → Except ε β) :
    (Except.ok value >>= next) = next value := rfl

/-- A transformed outcome that is a success comes from a success. -/
theorem ok_of_map {ε α β : Type} {outcome : Except ε α} {change : α → β} {result : β}
    (done : outcome.map change = .ok result) :
    ∃ value, outcome = .ok value ∧ change value = result := by
  cases outcome with
  | error refusal => cases done
  | ok value => exact ⟨value, rfl, Except.ok.inj done⟩

/-- The members of a value that is an object. -/
def members : Json → Members
  | .object members => members
  | _ => []

namespace Raw

/-- One tree stands inside another: where there is room for the outer one, there is room for the
inner one in what that leaves. -/
def Inside (inner outer : Raw) : Prop := ∀ room, outer.Within (room + 1) → inner.Within room

/-- The items of an array stand inside it. -/
theorem inside_array {items : List Raw} {item : Raw} (member : item ∈ items) (ended : Bool) :
    item.Inside (.array items ended) :=
  fun _ within => withinItems_iff.mp within item member

/-- The trees of members stand inside their object. -/
theorem inside_object {members : List (Key × Raw)} {key : Key} {tree : Raw}
    (member : (key, tree) ∈ members) (ended : Bool) : tree.Inside (.object members ended) :=
  fun _ within => withinMembers_iff.mp within (key, tree) member

/-- A value that is read is the value of the tree. -/
theorem value?_of_readValue {tree : Raw} {value : Json} (read : tree.readValue = .ok value) :
    tree.value? = some value := by
  unfold readValue at read
  split at read
  · rename_i found same
    rw [same, Except.ok.inj read]
  · cases read

/-- Members that are read are the value of the tree. -/
theorem value?_of_readMembers {tree : Raw} {members : Members}
    (read : tree.readMembers = .ok members) : tree.value? = some (.object members) := by
  unfold readMembers at read
  split at read
  · split at read
    · rename_i values same
      rw [same, Except.ok.inj read]
    · cases read
  · cases read
  · cases read

/-- Values that are read one after the other come from trees of the list. -/
theorem mem_of_mapM {α : Type} {read : Raw → Except Refusal α} {items : List Raw}
    {values : List α} (done : items.mapM read = .ok values) {value : α} (member : value ∈ values) :
    ∃ item ∈ items, read item = .ok value := by
  induction items generalizing values with
  | nil =>
    obtain rfl := Except.ok.inj done
    cases member
  | cons item items inductionHypothesis =>
    rw [List.mapM_cons] at done
    obtain ⟨first, here, done⟩ := ok_of_bind done
    obtain ⟨others, behind, done⟩ := ok_of_bind done
    obtain rfl := Except.ok.inj done
    rcases List.mem_cons.mp member with rfl | later
    · exact ⟨item, List.mem_cons_self, here⟩
    · obtain ⟨other, among, read⟩ := inductionHypothesis behind later
      exact ⟨other, List.mem_cons_of_mem _ among, read⟩

/-- The values of a list that is read come from trees inside it. -/
theorem inside_of_readList {α : Type} {read : Raw → Except Refusal α} {tree : Raw}
    {values : List α} (done : readList read tree = .ok values) {value : α}
    (member : value ∈ values) : ∃ item, item.Inside tree ∧ read item = .ok value := by
  unfold readList at done
  split at done
  · obtain ⟨found, mapped, done⟩ := ok_of_bind done
    split at done
    · obtain rfl := Except.ok.inj done
      obtain ⟨item, among, read⟩ := mem_of_mapM mapped member
      exact ⟨item, inside_array among _, read⟩
    · cases done
  · cases done

/-- What is read as a value that may be absent is absent, or read. -/
theorem read_of_readOptional {α : Type} {read : Raw → Except Refusal α} {tree : Raw}
    {result : Option α} (done : readOptional read tree = .ok result) {value : α}
    (present : value ∈ result) : read tree = .ok value := by
  unfold readOptional at done
  split at done
  · obtain rfl := Except.ok.inj done
    cases present
  · obtain ⟨found, same, rfl⟩ := ok_of_map done
    rw [same, Option.some.inj present]

/-- A list is read if each of its items is. -/
theorem mapM_ofItems {α : Type} {read : Raw → Except Refusal α} {write : α → Json}
    {values : List α} (each : ∀ value ∈ values, read (ofValue (write value)) = .ok value) :
    (ofItems (values.map write)).mapM read = .ok values := by
  induction values with
  | nil => rfl
  | cons value values inductionHypothesis =>
    rw [List.map_cons, ofItems, List.mapM_cons, each value List.mem_cons_self,
      inductionHypothesis fun other member => each other (List.mem_cons_of_mem _ member)]
    rfl

/-- A written value other than `null` is read as one that is present. -/
theorem readOptional_ofValue {α : Type} {read : Raw → Except Refusal α} {value : Json}
    {result : α} (done : read (ofValue value) = .ok result) (present : value ≠ .null) :
    readOptional read (ofValue value) = .ok (some result) := by
  rw [readOptional]
  · rw [done]
    rfl
  · intro absent
    cases value with
    | null => exact present rfl
    | bool | number | string | array | object => cases absent

/-- A written list is read if each of its items is. -/
theorem readList_ofValue {α : Type} {read : Raw → Except Refusal α} {write : α → Json}
    {values : List α} (each : ∀ value ∈ values, read (ofValue (write value)) = .ok value) :
    readList read (ofValue (.array (values.map write))) = .ok values := by
  rw [ofValue, readList, mapM_ofItems each]
  rfl

/-- A written value is read if it is ordered. -/
theorem readValue_ofValue {value : Json} (ordered : value.Ordered) :
    (ofValue value).readValue = .ok value := by
  rw [readValue, value?_ofValue ordered]

/-- Written members are read if they are ordered. -/
theorem readMembers_ofValue {members : Members} (ordered : (Json.object members).Ordered) :
    (ofValue (.object members)).readMembers = .ok members := by
  have value := value?_ofValue ordered
  rw [ofValue] at value ⊢
  rw [readMembers, value]

end Raw

/-- A field whose value is read passes its check. -/
theorem Field.check_of {α : Type} (key : String) {read : Raw → Except Refusal α} {tree : Raw}
    {value : α} (done : read tree = .ok value) : (Field.of key read).check tree = .ok () := by
  change (read tree).map (fun _ => ()) = .ok ()
  rw [done]
  rfl

namespace Record

/-- The fields found among members were found before, or stand among the members. -/
theorem mem_of_ofMembers {known : List Field} {ended : Bool} {found all : Found}
    {members : List (Key × Raw)} (done : ofMembers known ended found members = .ok all)
    {key : String} {tree : Raw} (member : (key, tree) ∈ all) :
    (key, tree) ∈ found ∨ (Key.text key, tree) ∈ members := by
  induction members generalizing found with
  | nil =>
    rw [ofMembers] at done
    split at done
    · obtain rfl := Except.ok.inj done
      exact .inl member
    · cases done
  | cons first members inductionHypothesis =>
    obtain ⟨key' | _, here⟩ := first
    · rw [ofMembers] at done
      split at done
      · split at done
        · cases done
        · obtain ⟨_, _, done⟩ := ok_of_bind done
          rcases inductionHypothesis done with earlier | later
          · rcases List.mem_append.mp earlier with before | this
            · exact .inl before
            · obtain ⟨rfl, rfl⟩ := Prod.mk.inj (List.mem_singleton.mp this)
              exact .inr List.mem_cons_self
          · exact .inr (List.mem_cons_of_mem _ later)
      · split at done
        · rcases inductionHypothesis done with earlier | later
          · exact .inl earlier
          · exact .inr (List.mem_cons_of_mem _ later)
        · cases done
    · cases done

/-- The fields found in an array stand among its items. -/
theorem mem_of_ofItems {excess : Refusal} {ended : Bool} {known : List Field} {items : List Raw}
    {all : Found} (done : ofItems excess ended known items = .ok all) {key : String} {tree : Raw}
    (member : (key, tree) ∈ all) : tree ∈ items := by
  induction known generalizing items all with
  | nil =>
    cases items with
    | nil =>
      rw [ofItems] at done
      split at done
      · obtain rfl := Except.ok.inj done
        cases member
      · cases done
    | cons item items => cases done
  | cons field known inductionHypothesis =>
    cases items with
    | nil =>
      rw [ofItems] at done
      split at done
      · obtain rfl := Except.ok.inj done
        cases member
      · cases done
    | cons item items =>
      obtain ⟨_, _, done⟩ := ok_of_bind done
      obtain ⟨others, behind, done⟩ := ok_of_bind done
      obtain rfl := Except.ok.inj done
      rcases List.mem_cons.mp member with same | later
      · obtain ⟨_, rfl⟩ := Prod.mk.inj same
        exact List.mem_cons_self
      · exact List.mem_cons_of_mem _ (inductionHypothesis behind later)

/-- The fields of a record stand inside it. -/
theorem inside_of_fields {excess : Refusal} {known : List Field} {tree : Raw} {found : Found}
    (done : fields excess known tree = .ok found) {key : String} {item : Raw}
    (here : found.lookup key = some item) : item.Inside tree := by
  obtain ⟨before, behind, parts, _⟩ := List.lookup_eq_some_iff.mp here
  have member : (key, item) ∈ found := by
    rw [parts]
    exact List.mem_append_right _ List.mem_cons_self
  unfold fields at done
  split at done
  · rcases mem_of_ofMembers done member with none | among
    · cases none
    · exact Raw.inside_object among _
  · exact Raw.inside_array (mem_of_ofItems done member) _
  all_goals cases done

/-- The value of a field that must be there is read from it. -/
theorem read_of_required {α : Type} {found : Found} {key : String} {read : Raw → Except Refusal α}
    {value : α} (done : required found key read = .ok value) :
    ∃ item, found.lookup key = some item ∧ read item = .ok value := by
  unfold required at done
  split at done
  · rename_i item here
    exact ⟨item, here, done⟩
  · cases done

/-- The value of a field that has a default is read from it, or the default. -/
theorem read_of_defaulted {α : Type} {found : Found} {key : String}
    {read : Raw → Except Refusal α} {default value : α}
    (done : defaulted found key read default = .ok value) :
    (∃ item, found.lookup key = some item ∧ read item = .ok value) ∨ value = default := by
  unfold defaulted at done
  split at done
  · rename_i item here
    exact .inl ⟨item, here, done⟩
  · exact .inr (Except.ok.inj done).symm

/-- The fields of a record as they are written. -/
def written (members : Members) : Found := members.map fun member => (member.1, .ofValue member.2)

/-- Members with distinct, known keys whose values pass their checks are all found. -/
theorem ofMembers_written {known : List Field} {found : Found} {members : Members}
    (distinct : (found.map Prod.fst ++ members.map Prod.fst).Nodup)
    (checked : ∀ member ∈ members, ∃ field, known.find? (·.key == member.1) = some field ∧
      field.check (.ofValue member.2) = .ok ()) :
    ofMembers known true found (Raw.ofMembers members) = .ok (found ++ written members) := by
  induction members generalizing found with
  | nil => simp [Raw.ofMembers, ofMembers, written]
  | cons member members inductionHypothesis =>
    obtain ⟨key, value⟩ := member
    obtain ⟨field, here, passes⟩ := checked (key, value) List.mem_cons_self
    have fresh : (found.lookup key).isSome = false := by
      rw [Option.isSome_eq_false_iff, Option.isNone_iff_eq_none, List.lookup_eq_none_iff]
      intro earlier member
      have apart := (List.nodup_append.mp distinct).2.2 earlier.1 (List.mem_map_of_mem member) key
        List.mem_cons_self
      exact bne_iff_ne.mpr apart.symm
    have further : ((found ++ [(key, Raw.ofValue value)]).map Prod.fst ++
        members.map Prod.fst).Nodup := by
      simpa using distinct
    have rest := inductionHypothesis further fun member among =>
      checked member (List.mem_cons_of_mem _ among)
    rw [Raw.ofMembers, ofMembers, here]
    simp only [fresh, passes]
    refine rest.trans ?_
    simp [written]

/-- A record that is written with distinct, known keys, whose values pass their checks, is read
with all of its fields. -/
theorem fields_ofValue {known : List Field} {members : Members}
    (distinct : (members.map Prod.fst).Nodup)
    (checked : ∀ member ∈ members, ∃ field, known.find? (·.key == member.1) = some field ∧
      field.check (.ofValue member.2) = .ok ()) (excess : Refusal) :
    fields excess known (.ofValue (.object members)) = .ok (written members) :=
  ofMembers_written distinct checked

/-- A written field is found under its key. -/
theorem lookup_written (members : Members) (key : String) :
    (written members).lookup key = (members.lookup key).map .ofValue := by
  induction members with
  | nil => rfl
  | cons member members inductionHypothesis =>
    obtain ⟨other, value⟩ := member
    rw [written] at inductionHypothesis ⊢
    rw [List.map_cons, List.lookup_cons, List.lookup_cons, inductionHypothesis]
    cases key == other with
    | false => rfl
    | true => rfl

/-- A field that must be there is read from what was written. -/
theorem required_written {α : Type} {members : Members} {key : String} {value : Json}
    (here : members.lookup key = some value) {read : Raw → Except Refusal α} {result : α}
    (done : read (.ofValue value) = .ok result) :
    required (written members) key read = .ok result := by
  rw [required, lookup_written, here]
  exact done

/-- A field that has a default is read from what was written. -/
theorem defaulted_written {α : Type} {members : Members} {key : String} {value : Json}
    (here : members.lookup key = some value) {read : Raw → Except Refusal α} {result : α}
    (done : read (.ofValue value) = .ok result) (default : α) :
    defaulted (written members) key read default = .ok result := by
  rw [defaulted, lookup_written, here]
  exact done

/-- A field that was not written has its default. -/
theorem defaulted_absent {α : Type} {members : Members} {key : String}
    (absent : members.lookup key = none) (read : Raw → Except Refusal α) (default : α) :
    defaulted (written members) key read default = .ok default := by
  rw [defaulted, lookup_written, absent]
  rfl

/-- A field that is written only if it has a value is read as what it was. -/
theorem defaulted_optional {α : Type} {members : Members} {key : String} {write : α → Json}
    {value : Option α} (here : members.lookup key = value.map write)
    {read : Raw → Except Refusal α}
    (done : ∀ present ∈ value,
      Raw.readOptional read (.ofValue (write present)) = .ok (some present)) :
    defaulted (written members) key (Raw.readOptional read) none = .ok value := by
  cases value with
  | none => exact defaulted_absent here _ _
  | some present => exact defaulted_written here (done present rfl) none

end Record
end CampusRules.Json
