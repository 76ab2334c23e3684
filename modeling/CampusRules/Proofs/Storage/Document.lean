import CampusRules.Json.Bytes
import CampusRules.Proofs.Rule.Reading
import CampusRules.Proofs.Storage.Saving

/-!
# Stored rules read back

A document holds its rules inside one more array than a request does. Legible rules come back
from it as they are, if each of them leaves room for that array; and what is loaded from any
document leaves room for it.
-/

namespace CampusRules.Document

open Json (Raw)

/-- Whether a rule can stand inside one more array and still be read. -/
abbrev Fits (rule : Rule) : Prop := rule.toJson.depth < Raw.nestingLimit

/-- The document of rules that leave room for it is within the limit. -/
theorem depth_listToJson {rules : List Rule} (fits : ∀ rule ∈ rules, Fits rule) :
    (Rule.listToJson rules).depth ≤ Raw.nestingLimit := by
  refine depth_array_le ?_
  intro item among
  obtain ⟨rule, member, rfl⟩ := List.mem_map.mp among
  exact Nat.le_of_lt_succ (fits rule member)

/-- Legible rules that leave room for their document come back from its text. -/
theorem parse?_text {rules : List Rule} (legible : ∀ rule ∈ rules, rule.Legible)
    (fits : ∀ rule ∈ rules, Fits rule) : parse? (text rules) = some rules := by
  have read : Rule.readList (.ofValue (Rule.listToJson rules)) = .ok rules :=
    Raw.readList_ofValue fun rule member => Rule.read_ofValue (legible rule member)
  rw [parse?, text, Raw.ofText_prettyText (depth_listToJson fits), read]
  rfl

/-- Rules that are loaded from a text are legible, and leave room for their document. -/
theorem of_parse? {content : String} {rules : List Rule} (parsed : parse? content = some rules)
    {rule : Rule} (member : rule ∈ rules) : rule.Legible ∧ Fits rule := by
  have read : Rule.readList (.ofText content) = .ok rules := by
    cases outcome : Rule.readList (.ofText content) with
    | error refusal =>
      rw [parse?, outcome] at parsed
      cases parsed
    | ok found =>
      rw [parse?, outcome] at parsed
      exact congrArg Except.ok (Option.some.inj parsed)
  obtain ⟨item, inside, read⟩ := Raw.inside_of_readList read member
  obtain ⟨legible, bounded⟩ := Rule.of_read read
  exact ⟨legible, Nat.lt_succ_of_le (bounded 122 (inside 126 (Raw.within_ofText content)))⟩

/-- The bytes of a text are read as that text. -/
theorem readText?_of_read? {disk : Disk} {location : Location} {content : String}
    (stored : disk.read? location = some content.toUTF8) :
    disk.readText? location = some content := by
  rw [Disk.readText?, stored, Option.bind_some, Json.Bytes.fromUTF8?_toUTF8]

/-- A place that keeps what stands there reads the same. -/
theorem readText?_of_node? {before after : Disk} {place : Location}
    (same : after.node? place = before.node? place) :
    after.readText? place = before.readText? place := by
  rw [Disk.readText?, Disk.readText?, Disk.read?, Disk.read?, same]

/-- What is loaded depends on nothing but the file at the place. -/
theorem load_fst (location : Location) (disk : Disk) :
    (load location disk).1 = (disk.readText? location).bind parse? := by
  unfold load
  cases disk.readText? location with
  | none => rfl
  | some content =>
    dsimp only
    rw [Option.bind_some]
    cases parse? content <;> rfl

/-- Where something is loaded, the disk stays as it was. -/
theorem load_snd {location : Location} {disk : Disk} {rules : List Rule}
    (loaded : (load location disk).1 = some rules) : (load location disk).2 = disk := by
  rw [load_fst] at loaded
  obtain ⟨content, read, parsed⟩ := Option.bind_eq_some_iff.mp loaded
  unfold load
  rw [read]
  dsimp only
  rw [parsed]

/-- Loading tries to move a text aside that is not a list of rules. -/
theorem load_of_unreadable {location : Location} {disk : Disk} {other : String}
    (held : disk.readText? location = some other)
    (unreadable : parse? other = none) :
    load location disk = (none, (disk.rename location (quarantine location)).2) := by
  rw [load, held]
  dsimp only
  rw [unreadable]

/-- Where nothing could be loaded, nothing can be loaded after that look: a document that is not
one is moved aside, or stays the one it was. -/
theorem load_again {location : Location} {disk : Disk} (nothing : (load location disk).1 = none) :
    (load location (load location disk).2).1 = none := by
  rw [load_fst] at nothing ⊢
  cases read : disk.readText? location with
  | none =>
    rw [load, read]
    dsimp only
    rw [read]
    rfl
  | some content =>
    rw [read, Option.bind_some] at nothing
    have unreadable : ∀ after : Disk, after.node? location = disk.node? location →
        (after.readText? location).bind parse? = none := by
      intro after same
      rw [readText?_of_node? same, read, Option.bind_some, nothing]
    rw [load_of_unreadable read nothing]
    cases moved : (disk.rename location (quarantine location)).1 with
    | error error =>
      rw [Disk.rename_failed _ _ _ _ moved]
      exact unreadable _ rfl
    | ok _ =>
      by_cases apart : quarantine location = location
      · rw [apart, Disk.rename_self]
        exact unreadable _ rfl
      · have inside : location ≠ [] := by
          rintro rfl
          cases read
        rw [Disk.readText?, Disk.read?, Disk.node?_rename_source moved apart inside]
        rfl

end CampusRules.Document
