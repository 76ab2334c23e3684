import CampusRules.Storage.Document

/-!
# What saving does to a disk

Saving takes three steps on the disk: folders are made, a temporary file is
written beside the document, and that file is given the document's name. Each
step is compared with the disk before it at the one place that matters, the place
of the document. Only the renaming touches it, and only when it succeeds; then
the document is complete.

The temporary file never has the place of the document, whatever the document is
called. Nothing is assumed about the disk: every step may fail for a reason of
its own, and what stood in the way before may still stand there.
-/

namespace CampusRules

namespace Location

/-- The stem of a name with a longer extension put behind it is another name. The
stem loses the last extension, so a name that is its own stem and an extension
would be longer than itself. -/
theorem stem_append_ne (name : List Char) :
    stem name ++ '.' :: Document.temporaryExtension.toList ≠ name := by
  intro same
  have reversed : name.reverse =
      ['p', 'm', 't', '.', 'n', 'o', 's', 'j', '.'] ++ (stem name).reverse := by
    have extension : Document.temporaryExtension.toList =
        ['j', 's', 'o', 'n', '.', 't', 'm', 'p'] := by decide
    rw [extension] at same
    have flipped := congrArg List.reverse same
    simpa using flipped.symm
  have cut : (name.reverse.dropWhile (· != '.')).drop 1 =
      ['n', 'o', 's', 'j', '.'] ++ (stem name).reverse := by
    rw [reversed]
    simp
  have longer : stem name = (['n', 'o', 's', 'j', '.'] ++ (stem name).reverse).reverse := by
    conv => lhs; unfold stem
    rw [cut]
    rfl
  have lengths := congrArg List.length longer
  simp at lengths

/-- A document and the temporary file that it is first written to have different
places, except at the root, which is no file. -/
theorem temporary_ne (location : Location) (inside : location ≠ []) :
    Document.temporary location ≠ location := by
  obtain ⟨folder, name, rfl⟩ : ∃ folder name, location = folder ++ [name] :=
    ⟨_, _, (List.dropLast_concat_getLast inside).symm⟩
  intro same
  unfold Document.temporary withExtension at same
  split at same
  · have lengths := congrArg List.length same
    simp only [parent, List.length_dropLast, List.length_append, List.length_cons] at lengths
    omega
  · have names : String.ofList (stem name.toList ++ '.' :: Document.temporaryExtension.toList) =
        name := by
      simpa [extended, parent] using same
    have characters := congrArg String.toList names
    rw [String.toList_ofList] at characters
    exact stem_append_ne _ characters

end Location

namespace Disk

/-- Counting a step changes nothing that stands on a disk. -/
@[simp]
theorem node?_tick (disk : Disk) (location : Location) :
    disk.tick.node? location = disk.node? location := rfl

/-- Leaving entries of one place out keeps those of every other place. -/
theorem lookup_filter_of_ne (entries : List (Location × Node)) (location other : Location)
    (different : other ≠ location) :
    (entries.filter fun entry => entry.1 != location).lookup other = entries.lookup other := by
  induction entries with
  | nil => rfl
  | cons entry rest inductionHypothesis =>
    obtain ⟨place, node⟩ := entry
    by_cases same : place = location
    · subst same
      have absent : (other == place) = false := by simp [different]
      simp [List.lookup_cons, absent, inductionHypothesis]
    · by_cases found : other = place <;> simp [List.lookup_cons, same, found, inductionHypothesis]

/-- What is put at a place stands there, unless it is the root. -/
theorem node?_place_self (disk : Disk) (location : Location) (node : Node)
    (inside : location ≠ []) : (disk.place location node).node? location = some node := by
  simp [node?, place, inside]

/-- A place that nothing is put at keeps what stands there. -/
theorem node?_place_of_ne (disk : Disk) (location other : Location) (node : Node)
    (different : other ≠ location) :
    (disk.place location node).node? other = disk.node? other := by
  have absent : (other == location) = false := by simp [different]
  simp [node?, place, List.lookup_cons, absent, lookup_filter_of_ne _ _ _ different]

/-- Nothing stands at a place that is cleared. -/
theorem node?_clear_self (disk : Disk) {location : Location} (inside : location ≠ []) :
    (disk.clear location).node? location = none := by
  rw [node?, if_neg inside, clear, List.lookup_eq_none_iff]
  intro entry member
  have other := (List.mem_filter.mp member).2
  exact bne_comm.trans other

/-- A place that is not cleared keeps what stands there. -/
theorem node?_clear_of_ne (disk : Disk) {location other : Location} (different : other ≠ location) :
    (disk.clear location).node? other = disk.node? other := by
  simp [node?, clear, lookup_filter_of_ne _ _ _ different]

/-- Making the folders with some names, one inside the other, leaves every place
alone that lies deeper than the last of them. -/
theorem node?_makeAlong (names : List String) (base target : Location) (disk : Disk)
    (deeper : base.length + names.length < target.length) :
    (makeAlong base (names.map .into) disk).2.node? target = disk.node? target := by
  induction names generalizing base disk with
  | nil => rfl
  | cons name rest inductionHypothesis =>
    have restDeeper : (base ++ [name]).length + rest.length < target.length := by
      simp only [List.length_append, List.length_cons, List.length_nil] at deeper ⊢
      omega
    have different : target ≠ base ++ [name] := by
      rintro rfl
      omega
    simp only [List.map_cons, makeAlong]
    split
    · exact inductionHypothesis (base ++ [name]) disk restDeeper
    · rfl
    · split
      · rw [inductionHypothesis (base ++ [name]) _ restDeeper]
        exact node?_place_of_ne disk (base ++ [name]) target .folder different
      · rfl

/-- Making the folders on the way to a place, or some of them, leaves the place
itself alone. -/
theorem node?_makeFolders (location : Location) (disk : Disk) :
    (makeFolders location.parent.steps disk).2.node? location = disk.node? location := by
  by_cases inside : location = []
  · simp [inside, node?]
  · have positive : 0 < location.length := List.length_pos_iff.mpr inside
    unfold makeFolders
    split
    · apply node?_makeAlong location.parent [] location disk.tick
      simp only [Location.parent, List.length_nil, List.length_dropLast]
      omega
    · rename_i made _
      rw [Location.steps, ← List.map_take]
      apply node?_makeAlong (location.parent.take made) [] location disk.tick
      simp only [Location.parent, List.length_nil, List.length_take, List.length_dropLast]
      omega

/-- Writing a file leaves every other place alone. -/
theorem node?_write_of_ne (location other : Location) (content : ByteArray) (disk : Disk)
    (different : other ≠ location) :
    (disk.write location content).2.node? other = disk.node? other := by
  unfold write
  split
  · rfl
  · exact node?_place_of_ne disk.tick location other _ different
  · exact node?_place_of_ne disk.tick location other _ different

/-- A file that was written holds the whole content. -/
theorem read?_write (location : Location) (content : ByteArray) (disk : Disk)
    (written : (disk.write location content).1 = .ok ()) :
    (disk.write location content).2.read? location = some content := by
  have inside : location ≠ [] := by
    rintro rfl
    simp [write, writable, node?, Location.parent] at written
  unfold write at written ⊢
  split at written
  · simp at written
  · rename_i writable sound
    simp [read?, node?_place_self _ _ _ inside]
  · simp at written

/-- Renaming that fails leaves the disk as it was, but for the count of steps. -/
theorem rename_failed (source target : Location) (disk : Disk) (error : DiskError)
    (failed : (disk.rename source target).1 = .error error) :
    (disk.rename source target).2 = disk.tick := by
  unfold rename at failed ⊢
  split at failed
  · rfl
  · rfl
  · rfl
  · simp at failed

/-- A file that can be read is a file that is not shut. -/
theorem node?_of_read? {disk : Disk} {location : Location} {content : ByteArray}
    (held : disk.read? location = some content) :
    disk.node? location = some (.file content) := by
  unfold read? at held
  split at held
  · obtain rfl := Option.some.inj held
    assumption
  · cases held

/-- What is a file stands at its place. -/
theorem node?_of_file? {disk : Disk} {location : Location} {file : Node}
    (held : disk.file? location = some file) : disk.node? location = some file := by
  unfold file? at held
  split at held
  · obtain rfl := Option.some.inj held
    assumption
  · cases held

/-- A file that can be read is a file. -/
theorem file?_of_read? {disk : Disk} {location : Location} {content : ByteArray}
    (held : disk.read? location = some content) :
    disk.file? location = some (.file content) := by
  rw [file?, node?_of_read? held]

/-- Renaming that succeeds gives the target the file that the source was. -/
theorem node?_rename_target {source target : Location} {disk : Disk}
    (renamed : (disk.rename source target).1 = .ok ()) :
    (disk.rename source target).2.node? target = disk.node? source := by
  have inside : target ≠ [] := by
    rintro rfl
    unfold rename at renamed
    split at renamed <;> simp_all [writable, node?, Location.parent]
  unfold rename at renamed ⊢
  split at renamed
  · cases renamed
  · cases renamed
  · cases renamed
  · rename_i file held sound _
    dsimp only
    rw [node?_of_file? held]
    by_cases same : source = target
    · rw [if_pos same, ← same]
      exact node?_of_file? held
    · rw [if_neg same, node?_place_self _ _ _ inside]

/-- Renaming that succeeds gives the target what the source held. -/
theorem read?_rename (source target : Location) (disk : Disk)
    (renamed : (disk.rename source target).1 = .ok ()) :
    (disk.rename source target).2.read? target = disk.read? source := by
  rw [read?, read?, node?_rename_target renamed]

/-- Renaming leaves every place alone but the two that it names. -/
theorem node?_rename_of_ne {source target other : Location} (disk : Disk)
    (notSource : other ≠ source) (notTarget : other ≠ target) :
    (disk.rename source target).2.node? other = disk.node? other := by
  unfold rename
  split
  · rfl
  · rfl
  · rfl
  · dsimp only
    split
    · rfl
    · rw [node?_place_of_ne _ _ _ _ notTarget, node?_clear_of_ne _ notSource]
      rfl

/-- A file that is given the name it has stays what it is. -/
theorem rename_self (location : Location) (disk : Disk) :
    (disk.rename location location).2 = disk.tick := by
  unfold rename
  split
  · rfl
  · rfl
  · rfl
  · exact if_pos rfl

/-- Nothing stands any more where a file was that has another name now. -/
theorem node?_rename_source {disk : Disk} {source target : Location}
    (renamed : (disk.rename source target).1 = .ok ()) (apart : target ≠ source)
    (inside : source ≠ []) : (disk.rename source target).2.node? source = none := by
  unfold rename at renamed ⊢
  split at renamed
  · cases renamed
  · cases renamed
  · cases renamed
  · dsimp only
    rw [if_neg apart.symm, node?_place_of_ne _ _ _ _ apart.symm, node?_clear_self _ inside]

end Disk

namespace Document

/-- Putting a document in its place either fails and leaves what stood there, or
succeeds and leaves the whole document there. -/
theorem replace_outcome (location : Location) (rules : List Rule) (disk : Disk) :
    (∃ error, (replace location rules disk).1 = .error error ∧
        (replace location rules disk).2.node? location = disk.node? location) ∨
      ((replace location rules disk).1 = .ok () ∧
        (replace location rules disk).2.read? location = some (text rules).toUTF8) := by
  by_cases inside : location = []
  · subst inside
    left
    have refused :
        disk.write (temporary []) (text rules).toUTF8 = (.error .notFile, disk.tick) := by
      simp [temporary, Location.withExtension, Location.extended, Disk.write, Disk.writable,
        Location.parent, Disk.node?]
    rw [replace, refused]
    exact ⟨.notFile, rfl, rfl⟩
  · have different : location ≠ temporary location := (Location.temporary_ne location inside).symm
    have besides := Disk.node?_write_of_ne (temporary location) location (text rules).toUTF8 disk
      different
    unfold replace
    cases written : disk.write (temporary location) (text rules).toUTF8 with
    | mk outcome beside =>
      rw [written] at besides
      cases outcome with
      | error error => exact .inl ⟨error, rfl, besides⟩
      | ok _ =>
        have content : beside.read? (temporary location) = some (text rules).toUTF8 := by
          have whole := Disk.read?_write (temporary location) (text rules).toUTF8 disk
          rw [written] at whole
          exact whole rfl
        cases renamed : (beside.rename (temporary location) location).1 with
        | error error =>
          refine .inl ⟨error, rfl, ?_⟩
          rw [Disk.rename_failed _ _ _ _ renamed]
          exact besides
        | ok _ => exact .inr ⟨rfl, (Disk.read?_rename _ _ _ renamed).trans content⟩

/-- Saving rules either fails and leaves what stood at their place, or succeeds and
leaves their whole document there, however the disk behaves. -/
theorem save_outcome (location : Location) (rules : List Rule) (disk : Disk) :
    (∃ error, (save location rules disk).1 = .error (.storage (DiskError.message error)) ∧
        (save location rules disk).2.node? location = disk.node? location) ∨
      ((save location rules disk).1 = .ok () ∧
        (save location rules disk).2.read? location = some (text rules).toUTF8) := by
  have folders := Disk.node?_makeFolders location disk
  unfold save
  cases made : disk.makeFolders location.parent.steps with
  | mk outcome ready =>
    rw [made] at folders
    cases outcome with
    | error error => exact .inl ⟨error, rfl, folders⟩
    | ok _ =>
      rcases replaced : replace location rules ready with ⟨outcome, after⟩
      rcases replace_outcome location rules ready with ⟨error, failed, same⟩ | ⟨done, whole⟩
      · rw [replaced] at failed same
        subst failed
        exact .inl ⟨error, by simp [report, replaced],
          by simpa [report, replaced] using same.trans folders⟩
      · rw [replaced] at done whole
        subst done
        exact .inr ⟨by simp [report, replaced], by simpa [report, replaced] using whole⟩

end Document
end CampusRules
