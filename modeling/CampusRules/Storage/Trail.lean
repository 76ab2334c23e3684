import CampusRules.Storage.Disk
import CampusRules.Text.Split

/-!
# Trails

A trail is a text that leads somewhere on a disk: names with slashes between them.
Two points lead out of a folder, which must be there, however the trail goes on;
empty names and single points lead nowhere else. At its end they still matter: what
such a trail leads to can only be a folder, and a folder that is made or removed may
have a slash behind its name, but no point.

A file is written with the folders on the way to it.
-/

namespace CampusRules

/-- How a trail ends: with a name or two points, with a slash behind them, or with a
point behind that slash. -/
inductive Ending where
  | plain
  | slash
  | point
  deriving DecidableEq, Repr

/-- A way over a disk, from the root on. -/
structure Trail where
  steps : List Step
  ending : Ending
  deriving DecidableEq, Repr

namespace Trail

/-- The step that a part of a trail's text means, if it leads anywhere. -/
def step? (part : List Char) : Option Step :=
  if part = [] ∨ part = ['.'] then none
  else if part = ['.', '.'] then some .out
  else some (.into (String.ofList part))

/-- The trail of a text that begins in a folder, or at the root if the text begins
with a slash. -/
def below (base : Location) (text : String) : Trail :=
  let parts := Text.split '/' text.toList
  let kept := (parts.reverse.dropWhile (·.isEmpty)).reverse
  let start := if text.toList.head? = some '/' then [] else base.steps
  { steps := start ++ parts.filterMap step?
    ending :=
      if kept.getLast? = some ['.'] then .point
      else if kept.length < parts.length then .slash
      else .plain }

/-- The steps to the folder in which a trail ends. -/
def way (trail : Trail) : List Step := trail.steps.dropLast

/-- The name at the end of a trail, if the last step is one inwards. -/
def name? (trail : Trail) : Option String :=
  match trail.steps.getLast? with
  | some (.into name) => some name
  | _ => none

/-- Whether no name on some steps has a zero byte, so that they can be tried at all. -/
def areSpelled (steps : List Step) : Bool :=
  steps.all fun step =>
    match step with
    | .into name => !name.toList.contains '\x00'
    | .out => true

end Trail

namespace Disk

/-- The place of the file that a trail leads to, whether or not it is there. -/
def locate (disk : Disk) (trail : Trail) : Except DiskError Location :=
  match trail.ending, trail.name? with
  | .plain, some name => (disk.follow [] trail.way).map (· ++ [name])
  | _, _ => .error .notFile

/-- Makes the folders that some steps lead through. -/
def makeSteps (steps : List Step) (disk : Disk) : Except DiskError Location × Disk :=
  if Trail.areSpelled steps then disk.makeFolders steps else (.error .badName, disk)

/-- Makes the folders on the way to the end of a trail, and gives the last of them. -/
def makeWay (trail : Trail) (disk : Disk) : Except DiskError Location × Disk :=
  disk.makeSteps trail.way

/-- The text of the file that a trail leads to. -/
def readTextAt? (disk : Disk) (trail : Trail) : Option String :=
  (disk.locate trail).toOption.bind disk.readText?

/-- Writes a file where a trail leads. -/
def writeAt (trail : Trail) (content : ByteArray) (disk : Disk) : Except DiskError Unit × Disk :=
  match disk.makeWay trail with
  | (.error error, tried) => (.error error, tried)
  | (.ok folder, ready) =>
    match trail.ending, trail.name? with
    | .plain, some name => ready.write (folder ++ [name]) content
    | _, _ => (.error .notFile, ready)

/-- Makes the folder that a trail leads to. Behind its name a point is right only if
the folder is there already. -/
def makeFolderAt (trail : Trail) (disk : Disk) : Except DiskError Unit × Disk :=
  match trail.ending, trail.name? with
  | .point, some name =>
    match disk.makeWay trail with
    | (.error error, tried) => (.error error, tried)
    | (.ok folder, ready) =>
      ((ready.follow folder [.into name]).map fun _ => (), ready)
  | _, _ =>
    let (made, ready) := disk.makeSteps trail.steps
    (made.map fun _ => (), ready)

/-- Removes the file that a trail leads to. -/
def removeFileAt (trail : Trail) (disk : Disk) : Except DiskError Unit × Disk :=
  match disk.locate trail with
  | .error error => (.error error, disk)
  | .ok location => disk.removeFile location

/-- Removes the empty folder that a trail leads to by its name. -/
def removeFolderAt (trail : Trail) (disk : Disk) : Except DiskError Unit × Disk :=
  match trail.ending, trail.name? with
  | .point, _ | _, none => (.error .occupied, disk)
  | _, some name =>
    match disk.follow [] trail.way with
    | .error error => (.error error, disk)
    | .ok folder => disk.removeFolder (folder ++ [name])

end Disk
end CampusRules
