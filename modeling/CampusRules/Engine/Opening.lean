import CampusRules.Engine.Registry
import CampusRules.Rule.Defaults

/-!
# Opening an engine

An engine opens on the rules that are stored. Stored rules that are not valid are
left out; the document stays as it is. Where nothing is stored that can be read,
the default rules are installed if that is asked for, and committed at once. A
stored list of no rules is a list, and stays empty.
-/

namespace CampusRules

/-- How an engine is to be opened: where its rules are stored, if at all, and
whether it gets the default rules where nothing is stored. -/
structure EngineConfig where
  storage : Option Location
  installDefaults : Bool
  deriving DecidableEq

namespace EngineConfig

/-- An engine that keeps the default rules in memory. -/
def standard : EngineConfig := ⟨none, true⟩

/-- An empty engine in memory. -/
def inMemory : EngineConfig := ⟨none, false⟩

/-- An engine that stores its rules in a folder. -/
def persistent (folder : Location) : EngineConfig := ⟨some (folder ++ ["rules.json"]), true⟩

/-- A configuration with its choice about the default rules. -/
def withDefaultRules (config : EngineConfig) (install : Bool) : EngineConfig :=
  { config with installDefaults := install }

end EngineConfig

namespace Engine

variable {σ : Type}

/-- Makes rules one after the other. -/
def makeAll : List NewRule → Engine σ → List Rule × Engine σ
  | [], engine => ([], engine)
  | new :: rest, engine =>
    let (rule, made) := engine.make new
    let (rules, last) := makeAll rest made
    (rule :: rules, last)

/-- The stored rules, and the engine after a look at its store. -/
def stored? (engine : Engine σ) : Option (List Rule) × Engine σ :=
  match engine.storage with
  | none => (none, engine)
  | some location =>
    let (rules, disk) := Document.load location engine.disk
    (rules, { engine with disk })

/-- Opens an engine on a disk. The outcome comes with the engine even when opening
fails, for the disk may have changed by then. -/
def start (config : EngineConfig) (disk : Disk) (supply : Supply) (outside : σ) :
    Except Failure Unit × Engine σ :=
  let bare : Engine σ := { storage := config.storage, disk, supply, outside }
  match bare.stored? with
  | (some rules, loaded) => (.ok (), { loaded with rules := rules.filter Rule.isValid })
  | (none, loaded) =>
    if config.installDefaults then
      let (rules, made) := loaded.makeAll DefaultRules.all
      made.commit rules
    else (.ok (), loaded)

end Engine
end CampusRules
