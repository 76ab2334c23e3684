import CampusRules.Proofs.Storage.Interruption
import Mathlib.Logic.Relation

/-!
# A text that is moved aside

A text that is not a list of rules is moved to a file of its own, where it stays: no save comes
near that file. But the move may fail. Then the text stands where the next document goes, and is
there until a save succeeds. So it is safe once it has been moved, or where no save can succeed.

Only what is moved aside later takes the place of what was moved before.
-/

namespace CampusRules

namespace Disk

/-- A disk that fails for no reason of its own. -/
def Faultless (disk : Disk) : Prop := ∀ step, disk.faults step = none

/-- A folder that is there, with every folder on the way to it. -/
def Reaches (disk : Disk) (folder : Location) : Prop :=
  ∀ names, names <+: folder → disk.node? names = some .folder

/-- Where all folders on the way are there, making them makes none. -/
theorem makeAlong_of_reaches (names : List String) (base : Location) {disk : Disk}
    (there : disk.Reaches (base ++ names)) :
    makeAlong base (names.map .into) disk = (.ok (base ++ names), disk) := by
  induction names generalizing base with
  | nil => rw [List.map_nil, makeAlong, List.append_nil]
  | cons name rest inductionHypothesis =>
    have onward : base ++ name :: rest = base ++ [name] ++ rest := by simp
    have next : disk.node? (base ++ [name]) = some .folder := by
      refine there _ ?_
      rw [onward]
      exact List.prefix_append _ _
    rw [onward] at there ⊢
    simp only [List.map_cons, makeAlong, next]
    exact inductionHypothesis (base ++ [name]) there

/-- Nothing can be written in place of a folder. -/
theorem writable_folder {disk : Disk} {location : Location}
    (folder : disk.node? location = some .folder) : disk.writable location ≠ .ok () := by
  unfold writable
  rw [folder]
  split <;> simp_all

/-- A file can be given a name in its folder that is one, unless a folder has it. -/
theorem writable_beside {disk : Disk} {folder : Location} {name : String}
    (there : disk.node? folder = some .folder) (named : Location.isName name = true)
    (free : disk.node? (folder ++ [name]) ≠ some .folder) :
    disk.writable (folder ++ [name]) = .ok () := by
  have parent : (folder ++ [name]).parent = folder := by
    rw [Location.parent, List.dropLast_concat]
  unfold writable
  rw [parent, there]
  cases stands : disk.node? (folder ++ [name]) with
  | none => simp [named]
  | some node =>
    cases node with
    | folder => exact absurd stands free
    | file content shut => rfl

/-- Where a file was renamed to, a file could be written. -/
theorem writable_of_renamed {disk : Disk} {source target : Location}
    (renamed : (disk.rename source target).1 = .ok ()) : disk.writable target = .ok () := by
  unfold rename at renamed
  split at renamed
  · cases renamed
  · cases renamed
  · cases renamed
  · assumption

/-- Renaming a file succeeds if the disk does not fail and the new name can be written at. -/
theorem rename_of_writable {disk : Disk} {source target : Location} {content : ByteArray}
    (read : disk.read? source = some content) (writable : disk.writable target = .ok ())
    (sound : disk.fault? = none) : (disk.rename source target).1 = .ok () := by
  simp only [rename, file?_of_read? read, writable, sound]

end Disk

namespace Document

/-- A document whose temporary file, and the file that it is moved to, are in its own folder and
have names of their own. -/
structure Plain (location : Location) : Prop where
  inside : location ≠ []
  temporary : (temporary location).parent = location.parent
  quarantine : (quarantine location).parent = location.parent
  apart : Document.quarantine location ≠ location
  others : Document.quarantine location ≠ Document.temporary location

/-- The document of the rules in a folder is such a one. -/
theorem plain_rules (folder : Location) : Plain (folder ++ ["rules.json"]) := by
  refine ⟨by simp, ?_, ?_, ?_, ?_⟩
  · rw [temporary_rules]
    simp only [Location.parent, List.dropLast_concat]
  · rw [quarantine_rules]
    simp only [Location.parent, List.dropLast_concat]
  · simp [quarantine_rules]
  · simp [quarantine_rules, temporary_rules]

/-- Whether a text can be found in the place of a document, or where it is moved aside. -/
def Retains (content : String) (location : Location) (disk : Disk) : Prop :=
  disk.readText? location = some content ∨ disk.readText? (quarantine location) = some content

/-- Whether a text is safe from saving: it has been moved aside, or a folder in place of the
temporary file lets no save succeed. -/
def Safe (content : String) (location : Location) (disk : Disk) : Prop :=
  disk.readText? (quarantine location) = some content ∨
    disk.node? (temporary location) = some .folder ∧ disk.readText? location = some content

/-- Whether loading would move no text aside but this one. -/
def MovesOnly (content : String) (location : Location) (disk : Disk) : Prop :=
  ∀ other, disk.readText? location = some other → parse? other = none →
    (disk.rename location (quarantine location)).1 = .ok () → other = content

variable {location : Location} {content : String} {disk : Disk}

/-- A text that is safe can be found. -/
theorem Safe.retains (safe : Safe content location disk) : Retains content location disk := by
  rcases safe with aside | ⟨_, here⟩
  · exact .inr aside
  · exact .inl here

/-- The outcome of saving leaves the disk that its steps leave. -/
theorem report_snd (outcome : Except DiskError Unit × Disk) : (report outcome).2 = outcome.2 := by
  rcases outcome with ⟨_ | _, _⟩ <;> rfl

/-- Putting a document in its place leaves every other place alone but that of the temporary
file. -/
theorem node?_replace_of_ne (rules : List Rule) (disk : Disk) {other : Location}
    (notHere : other ≠ location) (notTemporary : other ≠ temporary location) :
    (replace location rules disk).2.node? other = disk.node? other := by
  have wrote := Disk.node?_write_of_ne _ _ (text rules).toUTF8 disk notTemporary
  unfold replace
  rcases result : disk.write (temporary location) (text rules).toUTF8 with ⟨_ | _, written⟩
  · rw [result] at wrote
    exact wrote
  · rw [result] at wrote
    exact (Disk.node?_rename_of_ne written notTemporary notHere).trans wrote

/-- Saving leaves every other place in the folder of the document alone but that of the temporary
file. -/
theorem node?_save_of_ne (rules : List Rule) (disk : Disk) {other : Location}
    (beside : other.parent = location.parent) (notHere : other ≠ location)
    (notTemporary : other ≠ temporary location) :
    (save location rules disk).2.node? other = disk.node? other := by
  have folders := Disk.node?_makeFolders other disk
  rw [beside] at folders
  rw [save, report_snd]
  rcases made : disk.makeFolders location.parent.steps with ⟨_ | _, ready⟩
  · rw [made] at folders
    exact folders
  · rw [made] at folders
    exact (node?_replace_of_ne rules ready notHere notTemporary).trans folders

/-- A folder in place of the temporary file lets no save succeed, and stays there. -/
theorem save_of_blocked (plain : Plain location) (rules : List Rule)
    (blocked : disk.node? (temporary location) = some .folder) :
    (∃ failure, (save location rules disk).1 = .error failure) ∧
      (save location rules disk).2.node? (temporary location) = some .folder := by
  have folders := Disk.node?_makeFolders (temporary location) disk
  rw [plain.temporary, blocked] at folders
  unfold save
  rcases made : disk.makeFolders location.parent.steps with ⟨_ | _, ready⟩
  · rw [made] at folders
    exact ⟨⟨_, rfl⟩, folders⟩
  · rw [made] at folders
    have refused : ∃ error, ready.write (temporary location) (text rules).toUTF8 =
        (.error error, ready.tick) := by
      have not := Disk.writable_folder folders
      cases writable : ready.writable (temporary location) with
      | ok _ => exact absurd writable not
      | error error => exact ⟨error, by rw [Disk.write, writable]⟩
    obtain ⟨error, refused⟩ := refused
    dsimp only
    rw [replace, refused]
    exact ⟨⟨_, rfl⟩, folders⟩

/-- A text that is safe from saving is safe after it. -/
theorem Safe.save (plain : Plain location) (safe : Safe content location disk)
    (rules : List Rule) : Safe content location (save location rules disk).2 := by
  rcases safe with aside | ⟨blocked, here⟩
  · have same := node?_save_of_ne rules disk plain.quarantine plain.apart plain.others
    exact .inl ((readText?_of_node? same).trans aside)
  · obtain ⟨⟨failure, failed⟩, still⟩ := save_of_blocked plain rules blocked
    rcases save_outcome location rules disk with ⟨_, _, same⟩ | ⟨done, _⟩
    · exact .inr ⟨still, (readText?_of_node? same).trans here⟩
    · rw [failed] at done
      cases done

/-- One disk comes from another by saving lists of rules in one place, in any number. -/
abbrev Saves (location : Location) : Disk → Disk → Prop :=
  Relation.ReflTransGen fun before after => ∃ rules, after = (save location rules before).2

/-- A text that is safe from saving is safe however often rules are saved. -/
theorem Safe.saves (plain : Plain location) (safe : Safe content location disk) {left : Disk}
    (saves : Saves location disk left) : Safe content location left := by
  induction saves with
  | refl => exact safe
  | tail _ last inductionHypothesis =>
    obtain ⟨rules, rfl⟩ := last
    exact inductionHypothesis.save plain rules

/-- Saving, however often, leaves alone what is where a document is moved. -/
theorem node?_quarantine_of_saves (plain : Plain location) {left : Disk}
    (saves : Saves location disk left) :
    left.node? (quarantine location) = disk.node? (quarantine location) := by
  induction saves with
  | refl => rfl
  | @tail between _ _ last inductionHypothesis =>
    obtain ⟨rules, rfl⟩ := last
    have same := node?_save_of_ne rules between plain.quarantine plain.apart plain.others
    exact same.trans inductionHypothesis

/-- A text that a folder is in the way of stays where it is. -/
theorem load_of_occupied {other : String} (held : disk.readText? location = some other)
    (unreadable : parse? other = none)
    (occupied : disk.node? (quarantine location) = some .folder) :
    load location disk = (none, disk.tick) := by
  rw [load_of_unreadable held unreadable]
  cases moved : (disk.rename location (quarantine location)).1 with
  | ok _ => exact absurd (Disk.writable_of_renamed moved) (Disk.writable_folder occupied)
  | error error => rw [Disk.rename_failed _ _ _ _ moved]

/-- What loading moves aside is then found where it was moved. -/
theorem load_moved {other : String} (held : disk.readText? location = some other)
    (unreadable : parse? other = none)
    (moved : (disk.rename location (quarantine location)).1 = .ok ()) :
    (load location disk).2.readText? (quarantine location) = some other := by
  rw [load_of_unreadable held unreadable, Disk.readText?, Disk.read?_rename _ _ _ moved]
  exact held

/-- A text is safe after loading, if it was before and nothing else is moved aside. -/
theorem Safe.load (safe : Safe content location disk)
    (only : MovesOnly content location disk) : Safe content location (load location disk).2 := by
  cases held : disk.readText? location with
  | none =>
    rw [Document.load, held]
    exact safe
  | some other =>
    cases unreadable : parse? other with
    | some rules =>
      rw [Document.load, held]
      dsimp only
      rw [unreadable]
      exact safe
    | none =>
      cases moved : (disk.rename location (quarantine location)).1 with
      | ok _ =>
        obtain rfl := only other held unreadable moved
        exact .inl (load_moved held unreadable moved)
      | error error =>
        rw [load_of_unreadable held unreadable, Disk.rename_failed _ _ _ _ moved]
        exact safe

/-- A text that loading has moved aside is safe, and so is one that it could not move where no save
can succeed. -/
theorem safe_load (held : disk.readText? location = some content)
    (unreadable : parse? content = none)
    (moved : (disk.rename location (quarantine location)).1 = .ok () ∨
      disk.node? (temporary location) = some .folder) :
    Safe content location (load location disk).2 := by
  rcases moved with moved | blocked
  · exact .inl (load_moved held unreadable moved)
  · refine Safe.load (.inr ⟨blocked, held⟩) ?_
    intro other found _ _
    exact Option.some.inj (found.symm.trans held)

/-- A text is found nowhere any more after another one has been moved aside: that one is where it
was moved to, and nothing is where it came from. -/
theorem load_replaces (plain : Plain location) (another : ¬MovesOnly content location disk) :
    ¬Retains content location (load location disk).2 := by
  simp only [MovesOnly, not_forall] at another
  obtain ⟨other, held, unreadable, moved, different⟩ := another
  rintro (here | aside)
  · rw [load_of_unreadable held unreadable, Disk.readText?, Disk.read?,
      Disk.node?_rename_source moved plain.apart plain.inside] at here
    cases here
  · rw [load_moved held unreadable moved] at aside
    exact different (Option.some.inj aside)

/-- A text cannot be found where rules have taken its place and a folder is where it would have
been moved. -/
theorem not_retains_of_stored {rules : List Rule} (unreadable : parse? content = none)
    (stored : disk.read? location = some (text rules).toUTF8)
    (readable : parse? (text rules) = some rules)
    (folder : disk.node? (quarantine location) = some .folder) :
    ¬Retains content location disk := by
  rintro (here | aside)
  · rw [readText?_of_read? stored] at here
    rw [Option.some.inj here, unreadable] at readable
    cases readable
  · rw [Disk.readText?, Disk.read?, folder] at aside
    cases aside

/-- On a disk that does not fail, saving the rules of a folder that is there succeeds, unless a
folder has their name or that of the temporary file. -/
theorem save_of_free {folder : Location} {disk : Disk} (rules : List Rule)
    (faultless : disk.Faultless) (there : disk.Reaches folder)
    (file : disk.node? (folder ++ ["rules.json"]) ≠ some .folder)
    (free : disk.node? (temporary (folder ++ ["rules.json"])) ≠ some .folder) :
    (save (folder ++ ["rules.json"]) rules disk).1 = .ok () := by
  have here : disk.node? folder = some .folder := there folder List.prefix_rfl
  have parent : (folder ++ ["rules.json"]).parent = folder := by
    rw [Location.parent, List.dropLast_concat]
  have made : disk.makeFolders folder.steps = (.ok folder, disk.tick) := by
    rw [Disk.makeFolders, Disk.fault?, faultless]
    exact Disk.makeAlong_of_reaches folder [] there
  rw [temporary_rules] at free
  have writable : disk.tick.writable (folder ++ ["rules.json.tmp"]) = .ok () :=
    Disk.writable_beside here (by decide +kernel) free
  let wrote := disk.tick.tick.place (folder ++ ["rules.json.tmp"]) (.file (text rules).toUTF8)
  have written : disk.tick.write (folder ++ ["rules.json.tmp"]) (text rules).toUTF8 =
      (.ok (), wrote) := by
    have sound : disk.tick.fault? = none := faultless _
    rw [Disk.write, writable, sound]
  have held : wrote.read? (folder ++ ["rules.json.tmp"]) = some (text rules).toUTF8 := by
    rw [Disk.read?, Disk.node?_place_self _ _ _ (by simp)]
  have apart : folder ≠ folder ++ ["rules.json.tmp"] := by simp
  have ready : wrote.writable (folder ++ ["rules.json"]) = .ok () := by
    refine Disk.writable_beside ?_ (by decide +kernel) ?_
    · rw [Disk.node?_place_of_ne _ _ _ _ apart]
      exact here
    · rw [Disk.node?_place_of_ne _ _ _ _ (by simp)]
      exact file
  have renamed := Disk.rename_of_writable held ready (faultless _)
  rw [save, parent, made]
  dsimp only
  rw [replace, temporary_rules, written]
  dsimp only
  rcases moved : wrote.rename (folder ++ ["rules.json.tmp"]) (folder ++ ["rules.json"]) with
    ⟨_ | _, after⟩
  · rw [moved] at renamed
    cases renamed
  · rfl

/-- On a disk that does not fail, the rules of a folder that is there can be moved aside exactly
if no folder is in the way. -/
theorem moved_iff {folder : Location} {disk : Disk} {content : ByteArray}
    (faultless : disk.Faultless) (there : disk.Reaches folder)
    (held : disk.read? (folder ++ ["rules.json"]) = some content) :
    (disk.rename (folder ++ ["rules.json"]) (quarantine (folder ++ ["rules.json"]))).1 = .ok () ↔
      disk.node? (quarantine (folder ++ ["rules.json"])) ≠ some .folder := by
  constructor
  · intro moved blocked
    exact Disk.writable_folder blocked (Disk.writable_of_renamed moved)
  · intro free
    rw [quarantine_rules] at free ⊢
    have here : disk.node? folder = some .folder := there folder List.prefix_rfl
    exact Disk.rename_of_writable held (Disk.writable_beside here (by decide +kernel) free)
      (faultless _)

end Document
end CampusRules
