/-!
# The disk

A disk is a list of places with what stands there: a folder, or a file with its
bytes. The root is a folder that is always there. Steps lead from folder to folder,
inwards by name or outwards; folders that are missing on the way can be made. A file
is written only into a folder that is there, and takes the place of a file but never
of a folder. Renaming takes one step: at every moment the new name has either its old
content or the new one.

A file may be shut: nobody can read it, for want of a permission or because the disk fails
where it lies. It can still get another name, or be replaced. What is written anew is not
shut.

The steps that change a disk on behalf of a store may also fail for reasons of
their own. `faults` foretells them: for the step with a number, nothing, or how
much of it is done before it fails.
-/

namespace CampusRules

/-- A place on a disk: the names of the folders on the way to it, and its own. -/
abbrev Location := List String

/-- A step from a folder: to what has a name in it, or out of it. -/
inductive Step where
  | into (name : String)
  | out
  deriving DecidableEq, Repr

/-- What stands at a place: a folder, or a file, which may be shut. -/
inductive Node where
  | folder
  | file (content : ByteArray) (shut : Bool := false)

/-- A disk. -/
structure Disk where
  entries : List (Location × Node) := []
  faults : Nat → Option Nat := fun _ => none
  steps : Nat := 0

/-- Why a step on a disk failed. -/
inductive DiskError where
  | missing
  | notFolder
  | notFile
  | occupied
  | badName
  | fault
  deriving DecidableEq, Repr

/-- The text of a disk error. -/
def DiskError.message : DiskError → String
  | missing => "no such file or folder"
  | notFolder => "not a folder"
  | notFile => "is a folder"
  | occupied => "folder not empty"
  | badName => "not a name"
  | fault => "the disk failed"

namespace Location

/-- The steps from the root to a place. -/
def steps (location : Location) : List Step := location.map .into

/-- Whether something can have a name: its bytes are 255 at most, none of them zero. -/
def isName (name : String) : Bool :=
  name.utf8ByteSize ≤ 255 && !name.toList.contains '\x00'

/-- The folder that a place is in; the root is in itself. -/
def parent (location : Location) : Location := location.dropLast

/-- A name without its last extension. A point at its start begins no extension. -/
def stem (name : List Char) : List Char :=
  match (name.reverse.dropWhile (· != '.')).drop 1 with
  | [] => name
  | reversed => reversed.reverse

/-- A place with an extension behind the stem of its name. -/
def extended (location : Location) (extension : String) : Location :=
  match location.getLast? with
  | none => location
  | some name => location.parent ++ [String.ofList (stem name.toList ++ '.' :: extension.toList)]

/-- A place with another extension in its name. The old extension is taken off first,
up to its point. Where two points are left, as of `..b`, they are not a name but lead
out of the folder, and take no extension. -/
def withExtension (location : Location) (extension : String) : Location :=
  if location.getLast?.any fun name => stem name.toList = ['.'] then location.parent.parent
  else location.extended extension

end Location

namespace Disk

/-- What stands at a place. -/
def node? (disk : Disk) (location : Location) : Option Node :=
  if location = [] then some .folder else disk.entries.lookup location

/-- Puts something at a place. -/
def place (location : Location) (node : Node) (disk : Disk) : Disk :=
  { disk with
    entries := (location, node) :: disk.entries.filter fun entry => entry.1 != location }

/-- Leaves nothing at a place. -/
def clear (location : Location) (disk : Disk) : Disk :=
  { disk with entries := disk.entries.filter fun entry => entry.1 != location }

/-- The file that stands at a place, shut or not. -/
def file? (disk : Disk) (location : Location) : Option Node :=
  match disk.node? location with
  | some (.file content shut) => some (.file content shut)
  | _ => none

/-- The bytes of a file, if it can be read. -/
def read? (disk : Disk) (location : Location) : Option ByteArray :=
  match disk.node? location with
  | some (.file content false) => some content
  | _ => none

/-- The text of a file, if it can be read and its bytes are a text. -/
def readText? (disk : Disk) (location : Location) : Option String :=
  (disk.read? location).bind String.fromUTF8?

/-- The names of what stands directly inside a folder, in order. -/
def names (disk : Disk) (location : Location) : List String :=
  (disk.entries.filterMap fun entry =>
    if entry.1 ≠ [] ∧ entry.1.parent = location then entry.1.getLast? else none).mergeSort (· ≤ ·)

/-- The folder that steps lead to from a folder. -/
def follow (disk : Disk) : Location → List Step → Except DiskError Location
  | location, [] => .ok location
  | location, .out :: rest => disk.follow location.parent rest
  | location, .into name :: rest =>
    match disk.node? (location ++ [name]) with
    | some .folder => disk.follow (location ++ [name]) rest
    | some (.file ..) => .error .notFolder
    | none => .error .missing

/-- Following two lists of steps in a row is following the second from where the
first leads. -/
theorem follow_append (disk : Disk) (first second : List Step) (location : Location) :
    disk.follow location (first ++ second) =
      (disk.follow location first).bind (disk.follow · second) := by
  induction first generalizing location with
  | nil => rfl
  | cons step rest inductionHypothesis =>
    cases step with
    | out => exact inductionHypothesis location.parent
    | into name =>
      simp only [List.cons_append, follow]
      split
      · exact inductionHypothesis (location ++ [name])
      · rfl
      · rfl

/-- The folder that steps lead to from a folder, where folders that are missing on
the way are made. -/
def makeAlong : Location → List Step → Disk → Except DiskError Location × Disk
  | location, [], disk => (.ok location, disk)
  | location, .out :: rest, disk => makeAlong location.parent rest disk
  | location, .into name :: rest, disk =>
    match disk.node? (location ++ [name]) with
    | some .folder => makeAlong (location ++ [name]) rest disk
    | some (.file ..) => (.error .notFolder, disk)
    | none =>
      if Location.isName name then
        makeAlong (location ++ [name]) rest (disk.place (location ++ [name]) .folder)
      else (.error .badName, disk)

/-- Counts a step. -/
def tick (disk : Disk) : Disk := { disk with steps := disk.steps + 1 }

/-- The fault of the step that comes next. -/
def fault? (disk : Disk) : Option Nat := disk.faults disk.steps

/-- Makes the folders that steps from the root lead through, and gives the last of
them. A fault lets the folders of some steps be made. -/
def makeFolders (steps : List Step) (disk : Disk) : Except DiskError Location × Disk :=
  match disk.fault? with
  | none => makeAlong [] steps disk.tick
  | some made => (.error .fault, (makeAlong [] (steps.take made) disk.tick).2)

/-- Whether a file could be written at a place. -/
def writable (disk : Disk) (location : Location) : Except DiskError Unit :=
  match disk.node? location.parent, disk.node? location with
  | none, _ => .error .missing
  | some (.file ..), _ => .error .notFolder
  | some .folder, some .folder => .error .notFile
  | some .folder, some (.file ..) => .ok ()
  | some .folder, none =>
    if location.getLast?.all Location.isName then .ok () else .error .badName

/-- Writes a file. A fault leaves a file with the beginning of the content. -/
def write (location : Location) (content : ByteArray) (disk : Disk) :
    Except DiskError Unit × Disk :=
  match disk.writable location, disk.fault? with
  | .error error, _ => (.error error, disk.tick)
  | .ok (), none => (.ok (), disk.tick.place location (.file content))
  | .ok (), some written =>
    (.error .fault, disk.tick.place location (.file (content.extract 0 written)))

/-- Gives a file another name, under which it is shut if it was. A fault changes nothing. -/
def rename (source target : Location) (disk : Disk) : Except DiskError Unit × Disk :=
  match disk.file? source, disk.writable target, disk.fault? with
  | none, _, _ => (.error .missing, disk.tick)
  | some _, .error error, _ => (.error error, disk.tick)
  | some _, .ok (), some _ => (.error .fault, disk.tick)
  | some file, .ok (), none =>
    (.ok (), if source = target then disk.tick
      else (disk.tick.clear source).place target file)

/-- Removes a file. -/
def removeFile (location : Location) (disk : Disk) : Except DiskError Unit × Disk :=
  match disk.node? location with
  | some (.file ..) => (.ok (), disk.clear location)
  | some .folder => (.error .notFile, disk)
  | none => (.error .missing, disk)

/-- Removes an empty folder. -/
def removeFolder (location : Location) (disk : Disk) : Except DiskError Unit × Disk :=
  match disk.node? location with
  | some .folder =>
    if disk.names location = [] then (.ok (), disk.clear location) else (.error .occupied, disk)
  | some (.file ..) => (.error .notFolder, disk)
  | none => (.error .missing, disk)

end Disk
end CampusRules
