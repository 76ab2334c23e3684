import CampusRules.Proofs.Storage.Document

/-!
# Saving that is cut short

Saving may end anywhere: while folders are made, while the temporary file grows, before it is
renamed, or after that. `Passes` lists the disks that it passes through, and whichever of them it
leaves behind, the document is what it was or the new one, complete. So it stays over any number of
attempts that are cut short one after the other, each on what the one before has left.

What is left over of a temporary file is in nobody's way. Loading never looks at it, and a later
save writes over it.
-/

namespace CampusRules

namespace Disk

/-- Two disks that differ at one place at most, and fail alike. -/
structure DifferAt (spot : Location) (first second : Disk) : Prop where
  nodes : ∀ other, other ≠ spot → second.node? other = first.node? other
  faults : second.faults = first.faults
  steps : second.steps = first.steps

namespace DifferAt

variable {spot location : Location} {first second : Disk}

/-- What stands at another place is read the same. -/
theorem read? (differ : DifferAt spot first second) (other : location ≠ spot) :
    second.read? location = first.read? location := by
  rw [Disk.read?, Disk.read?, differ.nodes location other]

/-- What stands at another place is the same file, if it is one. -/
theorem file? (differ : DifferAt spot first second) (other : location ≠ spot) :
    second.file? location = first.file? location := by
  rw [Disk.file?, Disk.file?, differ.nodes location other]

/-- Elsewhere, and in other folders, the same can be written. -/
theorem writable (differ : DifferAt spot first second) (other : location ≠ spot)
    (folder : location.parent ≠ spot) : second.writable location = first.writable location := by
  rw [Disk.writable, Disk.writable, differ.nodes location other, differ.nodes _ folder]

/-- The next step fails on both or on none. -/
theorem fault? (differ : DifferAt spot first second) : second.fault? = first.fault? := by
  rw [Disk.fault?, Disk.fault?, differ.faults, differ.steps]

/-- Counting a step makes no further difference. -/
theorem tick (differ : DifferAt spot first second) : DifferAt spot first.tick second.tick :=
  ⟨differ.nodes, differ.faults, congrArg (· + 1) differ.steps⟩

/-- Clearing a place makes no further difference. -/
theorem clear (differ : DifferAt spot first second) (location : Location) :
    DifferAt spot (first.clear location) (second.clear location) := by
  refine ⟨?_, differ.faults, differ.steps⟩
  intro other different
  by_cases same : other = location
  · subst same
    by_cases root : other = []
    · rw [root]
      rfl
    · rw [node?_clear_self _ root, node?_clear_self _ root]
  · rw [node?_clear_of_ne _ same, node?_clear_of_ne _ same, differ.nodes other different]

/-- Putting the same at a place makes no further difference. -/
theorem place (differ : DifferAt spot first second) (location : Location) (node : Node) :
    DifferAt spot (first.place location node) (second.place location node) := by
  refine ⟨?_, differ.faults, differ.steps⟩
  intro other different
  by_cases same : other = location
  · subst same
    by_cases root : other = []
    · rw [root]
      rfl
    · rw [node?_place_self _ _ _ root, node?_place_self _ _ _ root]
  · rw [node?_place_of_ne _ _ _ _ same, node?_place_of_ne _ _ _ _ same,
      differ.nodes other different]

/-- Renaming files elsewhere makes no further difference. -/
theorem rename (differ : DifferAt spot first second) {source target : Location}
    (notSource : source ≠ spot) (notTarget : target ≠ spot) (folder : target.parent ≠ spot) :
    DifferAt spot (first.rename source target).2 (second.rename source target).2 := by
  unfold Disk.rename
  rw [differ.file? notSource, differ.writable notTarget folder, differ.fault?]
  split
  · exact differ.tick
  · exact differ.tick
  · exact differ.tick
  · dsimp only
    split
    · exact differ.tick
    · exact (differ.tick.clear source).place target _

end DifferAt
end Disk

namespace Document

/-- The stem of the name of a file of rules. -/
theorem stem_rules : Location.stem "rules.json".toList = "rules".toList := by decide +kernel

/-- Another extension for the file of rules in a folder. -/
theorem withExtension_rules (folder : Location) (extension : String) :
    Location.withExtension (folder ++ ["rules.json"]) extension =
      folder ++ [String.ofList ("rules".toList ++ '.' :: extension.toList)] := by
  have named : ¬(folder ++ ["rules.json"]).getLast?.any fun name =>
      Location.stem name.toList = ['.'] := by
    rw [List.getLast?_concat, Option.any_some, stem_rules]
    decide +kernel
  rw [Location.withExtension, if_neg named, Location.extended, List.getLast?_concat]
  dsimp only
  rw [stem_rules, Location.parent, List.dropLast_concat]

/-- The temporary file of the rules in a folder. -/
theorem temporary_rules (folder : Location) :
    temporary (folder ++ ["rules.json"]) = folder ++ ["rules.json.tmp"] := by
  have name : String.ofList ("rules".toList ++ '.' :: temporaryExtension.toList) =
      "rules.json.tmp" := by decide +kernel
  rw [temporary, withExtension_rules, name]

/-- Where rules in a folder are moved that cannot be read. -/
theorem quarantine_rules (folder : Location) :
    quarantine (folder ++ ["rules.json"]) = folder ++ ["rules.json.corrupt"] := by
  have name : String.ofList ("rules".toList ++ '.' :: "json.corrupt".toList) =
      "rules.json.corrupt" := by decide +kernel
  rw [quarantine, withExtension_rules, name]

/-- The disks that saving rules passes through. Folders on the way are made one after the other,
then the temporary file grows from nothing to its whole length, and then it is renamed. -/
inductive Passes (location : Location) (rules : List Rule) (disk : Disk) : Disk → Prop where
  | begins : Passes location rules disk disk
  | making (made : Nat) :
    Passes location rules disk (Disk.makeAlong [] (location.parent.steps.take made) disk).2
  | writing (written : Nat) {folder : Location} {ready : Disk}
      (made : disk.makeFolders location.parent.steps = (.ok folder, ready))
      (writable : ready.writable (temporary location) = .ok ()) :
    Passes location rules disk
      (ready.place (temporary location) (.file ((text rules).toUTF8.extract 0 written)))
  | returns : Passes location rules disk (save location rules disk).2

/-- Whatever saving passes through, the document is what it was, or the new one and complete. -/
theorem Passes.outcome {location : Location} {rules : List Rule} {disk left : Disk}
    (passes : Passes location rules disk left) :
    left.node? location = disk.node? location ∨
      left.read? location = some (text rules).toUTF8 := by
  cases passes with
  | begins => exact .inl rfl
  | making made =>
    by_cases root : location = []
    · exact .inl (by rw [root]; rfl)
    · have positive : 0 < location.length := List.length_pos_iff.mpr root
      rw [Location.steps, ← List.map_take]
      refine .inl (Disk.node?_makeAlong _ [] location disk ?_)
      simp only [Location.parent, List.length_nil, List.length_take, List.length_dropLast]
      omega
  | writing written made writable =>
    by_cases root : location = []
    · exact .inl (by rw [root]; rfl)
    · have folders := Disk.node?_makeFolders location disk
      rw [made] at folders
      have apart : location ≠ temporary location := (Location.temporary_ne location root).symm
      rw [Disk.node?_place_of_ne _ _ _ _ apart]
      exact .inl folders
  | returns =>
    rcases save_outcome location rules disk with ⟨_, _, same⟩ | ⟨_, whole⟩
    · exact .inl same
    · exact .inr whole

/-- Attempts to save lists of rules, each on the disk that the one before has left. Any of them
may have been cut short, and each time the disk may fail in other ways. -/
inductive Attempted (location : Location) (disk : Disk) : List (List Rule) → Disk → Prop where
  | none : Attempted location disk [] disk
  | again {attempts : List (List Rule)} {between left : Disk} {rules : List Rule}
      (earlier : Attempted location disk attempts between) (faults : Nat → Option Nat)
      (passes : Passes location rules { between with faults } left) :
    Attempted location disk (attempts ++ [rules]) left

/-- After any attempts to save, the document is what it was, or the complete one of an attempt. -/
theorem Attempted.outcome {location : Location} {disk left : Disk} {attempts : List (List Rule)}
    (attempted : Attempted location disk attempts left) :
    left.node? location = disk.node? location ∨
      ∃ rules ∈ attempts, left.read? location = some (text rules).toUTF8 := by
  induction attempted with
  | none => exact .inl rfl
  | @again attempts between left rules earlier faults passes inductionHypothesis =>
    rcases passes.outcome with same | whole
    · have here : left.node? location = between.node? location := same
      rcases inductionHypothesis with first | ⟨other, member, complete⟩
      · exact .inl (here.trans first)
      · refine .inr ⟨other, List.mem_append_left _ member, ?_⟩
        rw [Disk.read?, here]
        exact complete
    · exact .inr ⟨rules, List.mem_append_right _ List.mem_cons_self, whole⟩

/-- Saving that succeeds leaves the complete document of its own rules, whatever is on the disk. -/
theorem read?_save {location : Location} {rules : List Rule} {disk : Disk}
    (done : (save location rules disk).1 = .ok ()) :
    (save location rules disk).2.read? location = some (text rules).toUTF8 := by
  rcases save_outcome location rules disk with ⟨error, failed, _⟩ | ⟨_, whole⟩
  · rw [failed] at done
    cases done
  · exact whole

/-- Loading depends on nothing at a place that is neither the document's nor the one it is moved
to, and changes nothing there. -/
theorem load_differAt {location spot : Location} {first second : Disk}
    (differ : Disk.DifferAt spot first second) (notHere : location ≠ spot)
    (notAside : quarantine location ≠ spot) (folder : (quarantine location).parent ≠ spot) :
    (load location second).1 = (load location first).1 ∧
      Disk.DifferAt spot (load location first).2 (load location second).2 ∧
      (load location second).2.node? spot = second.node? spot := by
  have text : second.readText? location = first.readText? location := by
    rw [Disk.readText?, Disk.readText?, differ.read? notHere]
  have moved := differ.rename notHere notAside folder
  have still := Disk.node?_rename_of_ne second notHere.symm notAside.symm
  refine ⟨by rw [load_fst, load_fst, text], ?_⟩
  unfold load
  rw [text]
  split
  · exact ⟨differ, rfl⟩
  · split
    · exact ⟨differ, rfl⟩
    · exact ⟨moved, still⟩

/-- Saving rules in a folder is atomic. Wherever it is cut short, and in whatever way it fails, the
document is what stood there before or the complete new one, and it is the new one if saving
succeeds. The same holds after any number of attempts on what the ones before have left, and a save
that succeeds then leaves exactly its own document. What is left of a temporary file never matters
to loading, which leaves it as it is. -/
theorem saving_is_atomic (folder : Location) (rules : List Rule) (disk : Disk) :
    let location := folder ++ ["rules.json"]
    (∀ left, Passes location rules disk left →
      left.node? location = disk.node? location ∨
        left.read? location = some (text rules).toUTF8) ∧
    ((save location rules disk).1 = .ok () →
      (save location rules disk).2.read? location = some (text rules).toUTF8) ∧
    (∀ attempts left, Attempted location disk attempts left →
      (left.node? location = disk.node? location ∨
        ∃ tried ∈ attempts, left.read? location = some (text tried).toUTF8) ∧
      ∀ later, (save location later left).1 = .ok () →
        (save location later left).2.read? location = some (text later).toUTF8) ∧
    (∀ other, Disk.DifferAt (temporary location) disk other →
      (load location other).1 = (load location disk).1 ∧
        Disk.DifferAt (temporary location) (load location disk).2 (load location other).2 ∧
        (load location other).2.node? (temporary location) =
          other.node? (temporary location)) := by
  intro location
  refine ⟨fun left passes => passes.outcome, read?_save, ?_, ?_⟩
  · intro attempts left attempted
    exact ⟨attempted.outcome, fun later done => read?_save done⟩
  · intro other differ
    rw [temporary_rules] at differ ⊢
    refine load_differAt differ ?_ ?_ ?_
    · simp [location]
    · simp [location, quarantine_rules]
    · rw [quarantine_rules, Location.parent, List.dropLast_concat]
      intro same
      have lengths := congrArg List.length same
      simp at lengths

end Document
end CampusRules
