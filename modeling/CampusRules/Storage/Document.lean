import CampusRules.Failure
import CampusRules.Json.Printer
import CampusRules.Rule.Wire
import CampusRules.Storage.Trail

/-!
# The stored registry

All rules are kept in one JSON document. Saving writes the whole document to a
temporary file beside it and then renames that file, so that a reader only ever
sees a complete document, the old one or the new.

Loading gives nothing when there is no document, or when it cannot be read, or not as
text; then it stays where it is. A text that is not a list of rules also gives nothing,
and is moved aside under a name of its own, so that the next save does not destroy it.

A document may also be given by a trail. A trail that ends as only a folder's does
leads to no document; saving there gets as far as a temporary file, whose extension
stands behind the stem of the name.
-/

namespace CampusRules.Document

/-- The text of the document for a list of rules. -/
def text (rules : List Rule) : String := (Rule.listToJson rules).prettyText

/-- The rules of a document's text. -/
def parse? (text : String) : Option (List Rule) := (Rule.readList (.ofText text)).toOption

/-- The extension of a document that has not got its name yet. -/
def temporaryExtension : String := "json.tmp"

/-- Where a document is written before it gets its name. -/
def temporary (location : Location) : Location := location.withExtension temporaryExtension

/-- Where a document that cannot be read as rules is moved. -/
def quarantine (location : Location) : Location := location.withExtension "json.corrupt"

/-- The rules that are stored at a place, and the disk after a look at it. -/
def load (location : Location) (disk : Disk) : Option (List Rule) × Disk :=
  match disk.readText? location with
  | none => (none, disk)
  | some content =>
    match parse? content with
    | some rules => (some rules, disk)
    | none => (none, (disk.rename location (quarantine location)).2)

/-- The outcome of a step on the disk as the outcome of saving. -/
def report (outcome : Except DiskError Unit × Disk) : Except Failure Unit × Disk :=
  match outcome with
  | (.ok (), disk) => (.ok (), disk)
  | (.error error, disk) => (.error (.storage error.message), disk)

/-- Puts a document of rules at a place in a folder that is there. -/
def replace (location : Location) (rules : List Rule) (disk : Disk) :
    Except DiskError Unit × Disk :=
  match disk.write (temporary location) (text rules).toUTF8 with
  | (.error error, tried) => (.error error, tried)
  | (.ok (), written) => written.rename (temporary location) location

/-- Saves rules at a place. -/
def save (location : Location) (rules : List Rule) (disk : Disk) : Except Failure Unit × Disk :=
  report <|
    match disk.makeFolders location.parent.steps with
    | (.error error, tried) => (.error error, tried)
    | (.ok _, ready) => replace location rules ready

/-- The rules that are stored where a trail leads, and the disk after a look at it. -/
def loadAt (trail : Trail) (disk : Disk) : Option (List Rule) × Disk :=
  match disk.locate trail with
  | .ok location => load location disk
  | .error _ => (none, disk)

/-- Saves rules where a trail leads. -/
def saveAt (trail : Trail) (rules : List Rule) (disk : Disk) : Except Failure Unit × Disk :=
  report <|
    match disk.makeWay trail with
    | (.error error, tried) => (.error error, tried)
    | (.ok folder, ready) =>
      match trail.name? with
      | none => (.error .notFile, ready)
      | some name =>
        if trail.ending = .plain then replace (folder ++ [name]) rules ready
        else
          let beside := Location.extended (folder ++ [name]) temporaryExtension
          match ready.write beside (text rules).toUTF8 with
          | (.error error, tried) => (.error error, tried)
          | (.ok (), written) => (.error .notFile, written)

end CampusRules.Document
