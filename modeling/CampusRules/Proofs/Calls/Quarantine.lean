import CampusRules.Proofs.Calls.Step
import CampusRules.Proofs.Engine.Collaboration
import CampusRules.Proofs.Engine.Restart
import CampusRules.Proofs.Storage.Quarantine

/-!
# What becomes of a text that cannot be read as rules

An engine that opens on such a text moves it aside. After that, whatever is asked of it, by how
many callers and in which order, all that is done to its disk is saving, and saving comes nowhere
near what was moved. Neither does opening again, unless it finds another such text.

But where a folder is in the way the move fails, and opening goes on regardless. The text is then
where the next document goes, and is lost with the first save that succeeds: at once, when default
rules are installed, and otherwise with the first rule that is registered.
-/

namespace CampusRules

open Document (Retains MovesOnly Safe Saves plain_rules)

variable {σ : Type}

namespace Engine

/-- All that was done to the disk of an engine is saving. -/
structure Stores (before after : Engine σ) : Prop where
  storage : after.storage = before.storage
  disk : ∀ location, before.storage = some location → Saves location before.disk after.disk

namespace Stores

variable {before after : Engine σ}

/-- To leave the disk alone is nothing but saving. -/
theorem of_same (storage : after.storage = before.storage) (disk : after.disk = before.disk) :
    Stores before after := by
  constructor
  · exact storage
  · intro location _
    rw [disk]

/-- To save once is nothing but saving. -/
theorem of_saved {rules : List Rule} (storage : after.storage = before.storage)
    (disk : after.disk = (before.save rules).2.disk) : Stores before after := by
  constructor
  · exact storage
  · intro location stored
    rw [disk]
    refine .single ⟨rules, ?_⟩
    rw [save, stored]

/-- To save, and then to save again, is nothing but saving. -/
theorem trans {third : Engine σ} (earlier : Stores before after) (later : Stores after third) :
    Stores before third := by
  constructor
  · exact later.storage.trans earlier.storage
  · intro location stored
    have here : after.storage = some location := earlier.storage.trans stored
    exact (earlier.disk location stored).trans (later.disk location here)

/-- To commit rules is nothing but saving. -/
theorem commit (rules : List Rule) (engine : Engine σ) : Stores engine (engine.commit rules).2 := by
  have storage : (engine.save rules).2.storage = engine.storage := by
    rw [save_changes_disk]
  unfold Engine.commit
  split
  · rename_i saved result
    rw [result] at storage
    exact of_saved storage (by rw [result])
  · rename_i failure tried result
    rw [result] at storage
    exact of_saved storage (by rw [result])

/-- To announce what succeeds leaves the disk alone. -/
theorem concluded {α : Type} (answer : α) (event : Event) (rules : List Rule)
    (engine : Engine σ) : Stores engine (concluded answer event (engine.commit rules)).2 := by
  have stores := commit rules engine
  rcases result : engine.commit rules with ⟨_ | _, after⟩
  · rw [result] at stores
    exact stores
  · rw [result] at stores
    exact ⟨stores.storage, stores.disk⟩

/-- To add a rule that is made already is nothing but saving. -/
theorem insert (rule : Rule) (engine : Engine σ) : Stores engine (engine.insert rule).2 := by
  unfold Engine.insert
  split
  · exact of_same rfl rfl
  · split
    · exact of_same rfl rfl
    · exact concluded _ _ _ _

/-- To make rules leaves the disk alone. -/
theorem makeAll (requests : List NewRule) (engine : Engine σ) :
    Stores engine (engine.makeAll requests).2 := by
  obtain ⟨_, _, made⟩ := makeAll_engine requests engine
  rw [made]
  exact of_same rfl rfl

/-- To credit an execution is nothing but saving. -/
theorem credit (id : String) (time : Instant) (engine : Engine σ) :
    Stores engine (engine.credit id time).2 := by
  rw [credit_engine]
  split
  · exact of_same rfl rfl
  · rename_i index _
    let rules := engine.rules.modify index (·.executed time)
    have counted : Stores engine { engine with rules } := of_same rfl rfl
    refine counted.trans (of_saved ?_ rfl)
    rw [save_changes_disk]

end Stores
end Engine

namespace Collaborators

/-- Collaborators that do nothing to the disk but save rules, as they do who call back into the
engine. -/
def Storing (collaborators : Collaborators σ) : Prop :=
  ∀ handoff engine, Engine.Stores engine (collaborators.deliver handoff engine).2

/-- Detached collaborators leave the disk alone. -/
theorem Detached.storing {collaborators : Collaborators σ} (detached : collaborators.Detached) :
    collaborators.Storing := by
  intro handoff engine
  obtain ⟨_, _, _, left⟩ := detached handoff engine
  exact .of_same (by rw [left]) (by rw [left])

end Collaborators

namespace Engine

variable {collaborators : Collaborators σ}

/-- With collaborators that only save, every section of an operation does. -/
theorem sections_stores (storing : collaborators.Storing) : Sections collaborators Stores where
  refl _ := .of_same rfl rfl
  trans := .trans
  action _ _ := .of_same rfl rfl
  record _ _ := .of_same rfl rfl
  deliver := storing
  look _ := .of_same rfl rfl
  progress _ _ _ := .of_same rfl rfl
  credit id time engine := (Stores.credit id time engine).trans (.of_same rfl rfl)
  add new engine := by
    have made : Stores engine (engine.make new).2 := .of_same rfl rfl
    exact made.trans (.insert _ _)
  remove id engine := by
    unfold remove
    split
    · exact .of_same rfl rfl
    · exact .concluded _ _ _ _
  update id change engine := by
    unfold update
    split
    · exact .of_same rfl rfl
    · dsimp only
      split
      · exact .of_same rfl rfl
      · exact .concluded _ _ _ _

/-- A section of a round does nothing to the disk but save. -/
theorem stores_round (storing : collaborators.Storing) {round : Round} {found : Engine σ}
    {advance : Advance σ} (step : round.Step collaborators found advance) :
    Stores found advance.2.2 := by
  cases step with
  | passes | finds =>
    rw [round.occasion.moment_engine found]
    exact .of_same rfl rfl
  | @acts rule _ index action _ _ _ performed
  | @fails rule _ index action _ _ _ _ performed =>
    have acted := (sections_stores storing).perform action round.occasion.context
      (found.announceAction (.started rule.id index action.kind))
    rw [performed] at acted
    exact ⟨acted.storage, acted.disk⟩
  | writes =>
    refine .of_saved ?_ rfl
    rw [save_changes_disk]
  | answers | skips | begins | misses | counts | unstored | reads | tells => exact .of_same rfl rfl

/-- A section of a call does nothing to the disk but save. -/
theorem stores_advance (storing : collaborators.Storing) (call : Call) (found : Engine σ) :
    Stores found (call.advance collaborators found).2.2 := by
  cases call with
  | carrying round => exact stores_round storing (round.step collaborators found)
  | telling | answered => exact .of_same rfl rfl
  | asked command =>
    by_cases carries : command.carriesOut = true
    · cases command with
      | execute | trigger => exact .of_same rfl rfl
      | schedule now => cases now <;> exact .of_same rfl rfl
      | _ => cases carries
    · have quiet : command.carriesOut = false := by simpa using carries
      have ran := (sections_stores storing).run command found
      simp only [Call.advance, Call.start_of_quiet collaborators quiet]
      exact ⟨ran.storage, ran.disk⟩

/-- Calls that go on in any order do nothing to the disk but save. -/
theorem stores_follow (storing : collaborators.Storing) (callers : List Nat)
    (traffic : Traffic σ) :
    Stores traffic.engine (traffic.follow collaborators callers).2.engine := by
  refine Traffic.follow_induction (fun _ reached => Stores traffic.engine reached.engine) ?_
    callers traffic (.of_same rfl rfl)
  intro past caller reached taken after stores stepped
  obtain ⟨call, _, _, rfl, rfl⟩ := Traffic.step_eq_some stepped
  exact stores.trans (stores_advance storing call reached.engine)

/-- Opening an engine looks at the stored rules, and after that only saves. -/
theorem saves_start {config : EngineConfig} {location : Location}
    (place : config.storage = some location) (disk : Disk) (supply : Supply) (outside : σ) :
    (start config disk supply outside).2.storage = some location ∧
      Saves location (Document.load location disk).2 (start config disk supply outside).2.disk := by
  cases loaded : (Document.load location disk).1 with
  | some stored =>
    rw [start_of_stored place loaded, Document.load_snd loaded]
    exact ⟨rfl, .refl⟩
  | none =>
    rw [start_of_nothing place loaded]
    dsimp only
    split
    · let loaded := unstocked location disk supply outside
      have stores : Stores loaded ((loaded.makeAll DefaultRules.all).2.commit
          (loaded.makeAll DefaultRules.all).1).2 :=
        (Stores.makeAll DefaultRules.all loaded).trans (.commit _ _)
      exact ⟨stores.storage, stores.disk location rfl⟩
    · exact ⟨rfl, .refl⟩

/-- The life of an engine on a disk: it is opened with what the world then supplies, and calls go
on in some order, up to any point. -/
structure Life (σ : Type) where
  installDefaults : Bool
  supply : Supply
  outside : σ
  collaborators : Collaborators σ
  storing : collaborators.Storing
  commands : List Command := []
  callers : List Nat := []

namespace Life

/-- An engine opens on the rules in a folder. -/
def opens (folder : Location) (disk : Disk) (life : Life σ) : Except Failure Unit × Engine σ :=
  start ((EngineConfig.persistent folder).withDefaultRules life.installDefaults) disk life.supply
    life.outside

/-- The disk that the life of an engine leaves behind. One that does not open is asked nothing. -/
def leaves (folder : Location) (disk : Disk) (life : Life σ) : Disk :=
  match life.opens folder disk with
  | (.error _, tried) => tried.disk
  | (.ok (), engine) =>
    (Traffic.follow life.collaborators life.callers
      ⟨engine, life.commands.map .asked⟩).2.engine.disk

/-- Whether no life in a row moves a text aside but this one. -/
def MoveOnly (content : String) (folder : Location) : List (Life σ) → Disk → Prop
  | [], _ => True
  | life :: later, disk =>
    MovesOnly content (folder ++ ["rules.json"]) disk ∧
      MoveOnly content folder later (life.leaves folder disk)

variable {folder : Location}

/-- A life is a look at the stored rules, and after that only saving. -/
theorem saves (life : Life σ) (disk : Disk) :
    Saves (folder ++ ["rules.json"]) (Document.load (folder ++ ["rules.json"]) disk).2
      (life.leaves folder disk) := by
  let config := (EngineConfig.persistent folder).withDefaultRules life.installDefaults
  have place : config.storage = some (folder ++ ["rules.json"]) := rfl
  obtain ⟨storage, saves⟩ := saves_start place disk life.supply life.outside
  unfold leaves opens
  rcases result : start config disk life.supply life.outside with ⟨_ | _, engine⟩
  · rw [result] at saves
    exact saves
  · rw [result] at storage saves
    have stores := stores_follow life.storing life.callers ⟨engine, life.commands.map .asked⟩
    exact saves.trans (stores.disk _ storage)

variable {content : String}

/-- A text that is safe stays so over any lives that move no other aside. -/
theorem safe_of_moveOnly {lives : List (Life σ)} {disk : Disk}
    (safe : Safe content (folder ++ ["rules.json"]) disk)
    (only : MoveOnly content folder lives disk) :
    Safe content (folder ++ ["rules.json"]) (lives.foldl (leaves folder) disk) := by
  induction lives generalizing disk with
  | nil => exact safe
  | cons life later inductionHypothesis =>
    obtain ⟨here, after⟩ := only
    have still := (safe.load here).saves (plain_rules folder) (life.saves disk)
    exact inductionHypothesis still after

/-- Whether a text is found after every run that a life begins: whatever is asked in it, and
whatever lives follow, as long as no other text is moved aside. -/
def Preserves (content : String) (folder : Location) (disk : Disk) (first : Life σ) : Prop :=
  ∀ commands callers later, let lives := { first with commands, callers } :: later
    MoveOnly content folder lives disk →
      Retains content (folder ++ ["rules.json"]) (lives.foldl (leaves folder) disk)

/-- A text that is moved aside when a life begins is preserved, and so is one where no save can
succeed. -/
theorem preserves_of_moved {disk : Disk} {first : Life σ}
    (held : disk.readText? (folder ++ ["rules.json"]) = some content)
    (unreadable : Document.parse? content = none)
    (moved : (disk.rename (folder ++ ["rules.json"])
        (Document.quarantine (folder ++ ["rules.json"]))).1 = .ok () ∨
      disk.node? (Document.temporary (folder ++ ["rules.json"])) = some .folder) :
    Preserves content folder disk first := by
  intro commands callers later lives only
  have opened := Document.safe_load held unreadable moved
  have lived := opened.saves (plain_rules folder) ({ first with commands, callers }.saves disk)
  exact (safe_of_moveOnly lived only.2).retains

end Life

/-- Default rules that an engine opens on can be read back from where it has stored them. -/
theorem stored_defaults {config : EngineConfig} {location : Location}
    (place : config.storage = some location) (install : config.installDefaults = true)
    {disk : Disk} (nothing : (Document.load location disk).1 = none) {supply : Supply}
    {outside : σ} (clock : ∀ look, (supply.clock look).instant.IsTime)
    (opened : (start config disk supply outside).1 = .ok ()) :
    ∃ rules, (start config disk supply outside).2.disk.read? location =
        some (Document.text rules).toUTF8 ∧
      Document.parse? (Document.text rules) = some rules := by
  have legible := (kept_start place clock opened).legible
  exact ⟨_, (installed_of_nothing place install nothing opened).2,
    Document.parse?_text legible (fits_start place opened)⟩

/-- The first default rule has no flaw, whatever its identifier and time. -/
theorem flaw?_confirmation (fresh : String) (now : Instant) :
    (Rule.ofNew DefaultRules.enrollmentConfirmation fresh now).flaw? = none := by
  have sample : (Rule.ofNew DefaultRules.enrollmentConfirmation "" ⟨0, 0⟩).flaw? = none := by
    decide +kernel
  exact sample

/-- A rule that an engine without rules is asked to add can be read back from where it is stored. -/
theorem stored_addition {location : Location} {engine : Engine σ} (bare : engine.rules = [])
    (storage : engine.storage = some location)
    (clock : ∀ look, (engine.supply.clock look).instant.IsTime)
    (saves : ∀ rules, (Document.save location rules engine.disk).1 = .ok ()) :
    ∃ rules, (engine.add DefaultRules.enrollmentConfirmation).2.disk.read? location =
        some (Document.text rules).toUTF8 ∧
      Document.parse? (Document.text rules) = some rules := by
  let new := DefaultRules.enrollmentConfirmation
  have among : new ∈ DefaultRules.all := List.mem_cons_self
  let made := (engine.make new).2
  let rule := Rule.ofNew new engine.supply.fresh engine.supply.now.instant
  have storable : (made.save (made.rules ++ [rule])).1 = .ok () := by
    have place : made.storage = some location := storage
    rw [save, place]
    exact saves _
  have absent : made.find? rule.id = none := by
    have none : made.rules = [] := bare
    rw [find?, none, List.find?_nil]
  have accepted : (engine.add new).1 = .ok rule.id :=
    (insert_ok_iff _ _).mpr ⟨flaw?_confirmation _ _, absent, storable⟩
  rcases add_outcome new engine with ⟨_, failed, _⟩ | ⟨_, committed⟩
  · rw [accepted] at failed
    cases failed
  · refine ⟨[rule], ?_, Document.parse?_text ?_ ?_⟩
    · have stored := committed.document location storage
      rwa [bare] at stored
    · intro other member
      obtain rfl := List.mem_singleton.mp member
      exact Rule.legible_ofNew (DefaultRules.legible among) _ (clock _)
    · intro other member
      obtain rfl := List.mem_singleton.mp member
      exact DefaultRules.fits among _ _

namespace Life

variable {folder : Location} {content : String} {disk : Disk}

/-- A life in which nothing is asked leaves what opening leaves. -/
theorem leaves_idle {life : Life σ} (opened : (life.opens folder disk).1 = .ok ()) :
    ({ life with commands := [], callers := [] }).leaves folder disk =
      (life.opens folder disk).2.disk := by
  unfold leaves
  rcases result : life.opens folder disk with ⟨_ | _, engine⟩
  · rw [result] at opened
    cases opened
  · have same : ({ life with commands := [], callers := [] }).opens folder disk =
        (.ok (), engine) := result
    rw [same]
    rfl

/-- A life in which one rule is added leaves what adding it leaves. -/
theorem leaves_addition {life : Life σ} (opened : (life.opens folder disk).1 = .ok ())
    (new : NewRule) :
    ({ life with commands := [.add new], callers := [0] }).leaves folder disk =
      ((life.opens folder disk).2.add new).2.disk := by
  unfold leaves
  rcases result : life.opens folder disk with ⟨_ | _, engine⟩
  · rw [result] at opened
    cases opened
  · have same : ({ life with commands := [.add new], callers := [0] }).opens folder disk =
        (.ok (), engine) := result
    rw [same]
    rfl

/-- A folder that is in the way of moving a text aside stays there. -/
theorem occupied_leaves (life : Life σ)
    (held : disk.readText? (folder ++ ["rules.json"]) = some content)
    (unreadable : Document.parse? content = none)
    (occupied : disk.node? (Document.quarantine (folder ++ ["rules.json"])) = some .folder) :
    (life.leaves folder disk).node? (Document.quarantine (folder ++ ["rules.json"])) =
      some .folder := by
  rw [Document.node?_quarantine_of_saves (plain_rules folder) (life.saves disk),
    Document.load_of_occupied held unreadable occupied]
  exact occupied

/-- Where a folder is in the way of moving a text aside, and saving can succeed, a life can begin
in which the text is lost. -/
theorem not_preserves {first : Life σ} (faultless : disk.Faultless) (there : disk.Reaches folder)
    (held : disk.readText? (folder ++ ["rules.json"]) = some content)
    (unreadable : Document.parse? content = none)
    (clock : ∀ look, (first.supply.clock look).instant.IsTime)
    (opened : (first.opens folder disk).1 = .ok ())
    (occupied : disk.node? (Document.quarantine (folder ++ ["rules.json"])) = some .folder)
    (free : disk.node? (Document.temporary (folder ++ ["rules.json"])) ≠ some .folder) :
    ¬Preserves content folder disk first := by
  let location := folder ++ ["rules.json"]
  obtain ⟨bytes, read, _⟩ := Option.bind_eq_some_iff.mp held
  have loaded := Document.load_of_occupied held unreadable occupied
  have nothing : (Document.load location disk).1 = none := by
    rw [loaded]
  have lost : ∃ commands callers rules,
      (({ first with commands, callers }).leaves folder disk).read? location =
          some (Document.text rules).toUTF8 ∧
        Document.parse? (Document.text rules) = some rules := by
    by_cases install : first.installDefaults = true
    · refine ⟨[], [], ?_⟩
      rw [leaves_idle opened]
      exact stored_defaults rfl install nothing clock opened
    · refine ⟨[.add DefaultRules.enrollmentConfirmation], [0], ?_⟩
      have bare : first.opens folder disk =
          (.ok (), unstocked location disk first.supply first.outside) := by
        rw [opens, start_of_nothing rfl nothing]
        exact if_neg install
      rw [leaves_addition opened, bare]
      refine stored_addition rfl rfl clock fun rules => ?_
      have after : (unstocked location disk first.supply first.outside).disk = disk.tick := by
        rw [unstocked, loaded]
      have file : disk.tick.node? location ≠ some .folder := by
        intro stands
        rw [Disk.node?_tick] at stands
        rw [Disk.read?, stands] at read
        cases read
      rw [after]
      exact Document.save_of_free rules (fun step => faultless step) there file free
  intro preserves
  obtain ⟨commands, callers, rules, stored, readable⟩ := lost
  let life : Life σ := { first with commands, callers }
  have only : MovesOnly content location disk := by
    intro other found _ _
    exact Option.some.inj (found.symm.trans held)
  have still := life.occupied_leaves held unreadable occupied
  exact Document.not_retains_of_stored unreadable stored readable still
    (preserves commands callers [] ⟨only, trivial⟩)

/-- A text that is not a list of rules is preserved by every life that begins with moving it
aside, and by every life on a disk where no save can succeed, whatever else fails. Where the disk
does not fail, the move succeeds exactly if no folder is in its way, and a text that could not be
moved is lost with the first save. A restart that moves another text aside always loses this
one. -/
theorem preserves_iff {first : Life σ}
    (held : disk.readText? (folder ++ ["rules.json"]) = some content)
    (unreadable : Document.parse? content = none)
    (opened : (first.opens folder disk).1 = .ok ()) :
    let location := folder ++ ["rules.json"]
    ((disk.rename location (Document.quarantine location)).1 = .ok () ∨
        disk.node? (Document.temporary location) = some .folder →
      Preserves content folder disk first) ∧
    (disk.Faultless → disk.Reaches folder →
      (∀ look, (first.supply.clock look).instant.IsTime) →
        (Preserves content folder disk first ↔
          (disk.node? (Document.quarantine location) ≠ some .folder ∨
            disk.node? (Document.temporary location) = some .folder))) ∧
    (∀ left, ¬MovesOnly content location left →
      ¬Retains content location (Document.load location left).2) := by
  intro location
  refine ⟨preserves_of_moved held unreadable, ?_, ?_⟩
  · intro faultless there clock
    constructor
    · intro preserves
      by_contra neither
      obtain ⟨occupied, free⟩ := not_or.mp neither
      exact not_preserves faultless there held unreadable clock opened (not_not.mp occupied) free
        preserves
    · rintro (clear | blocked)
      · obtain ⟨bytes, read, _⟩ := Option.bind_eq_some_iff.mp held
        exact preserves_of_moved held unreadable
          (.inl ((Document.moved_iff faultless there read).mpr clear))
      · exact preserves_of_moved held unreadable (.inr blocked)
  · intro left another
    exact Document.load_replaces (plain_rules folder) another

/-- A folder of rules that are none, where an older such text has been moved aside. -/
def scribbled : Disk where
  entries := [(["data"], .folder), (["data", "rules.json"], .file "not json".toUTF8),
    (["data", "rules.json.corrupt"], .file "not json either".toUTF8)]

/-- A life that begins with the default rules where nothing can be loaded. -/
def provided : Life Unit where
  installDefaults := true
  supply := welcoming.supply
  outside := ()
  collaborators := .logging
  storing := Collaborators.logging_detached.storing

/-- A text that is not a list of rules is moved aside, and is still there when the engine is
opened again. -/
theorem scribble_is_preserved :
    (provided.opens ["data"] scribbled).1 = .ok () ∧
      Preserves "not json" ["data"] scribbled provided ∧
      Retains "not json" ["data", "rules.json"]
        ([provided, provided].foldl (leaves ["data"]) scribbled) := by
  have held : scribbled.readText? ["data", "rules.json"] = some "not json" := by decide +kernel
  have unreadable : Document.parse? "not json" = none := by decide +kernel
  have opened : (provided.opens ["data"] scribbled).1 = .ok () := by decide +kernel
  have there : scribbled.Reaches ["data"] := by
    intro names within
    rcases List.prefix_cons_iff.mp within with rfl | ⟨rest, rfl, none⟩
    · rfl
    · rw [List.prefix_nil.mp none]
      rfl
  have preserves : Preserves "not json" ["data"] scribbled provided := by
    refine ((preserves_iff held unreadable opened).2.1 (fun _ => rfl) there isTime_welcoming).mpr
      (.inl ?_)
    rw [Document.quarantine_rules]
    have file : scribbled.node? (["data"] ++ ["rules.json.corrupt"]) =
        some (.file "not json either".toUTF8) := rfl
    rw [file]
    nofun
  refine ⟨opened, preserves, preserves [] [] [provided] ⟨?_, ?_, trivial⟩⟩
  · intro other found _ _
    exact Option.some.inj (found.symm.trans held)
  · have nothing : (Document.load ["data", "rules.json"] scribbled).1 = none := by
      rw [Document.load_of_unreadable held unreadable]
    obtain ⟨rules, stored, readable⟩ := stored_defaults rfl rfl nothing isTime_welcoming opened
    have idle : leaves ["data"] scribbled provided = (provided.opens ["data"] scribbled).2.disk :=
      leaves_idle opened
    have left : (leaves ["data"] scribbled provided).readText? ["data", "rules.json"] =
        some (Document.text rules) := by
      rw [idle]
      exact Document.readText?_of_read? stored
    intro other found none _
    rw [Option.some.inj (found.symm.trans left), readable] at none
    cases none

/-- A folder of rules that are none, with another folder in the way of moving them aside. -/
def obstructed : Disk where
  entries := [(["data"], .folder), (["data", "rules.json"], .file "not json".toUTF8),
    (["data", "rules.json.corrupt"], .folder)]

/-- Where a folder is in the way of moving a text aside, the engine opens all the same, and has
written the default rules in place of the text. -/
theorem obstructed_text_is_lost :
    obstructed.readText? ["data", "rules.json"] = some "not json" ∧
      Document.parse? "not json" = none ∧
      (provided.opens ["data"] obstructed).1 = .ok () ∧
      ¬Retains "not json" ["data", "rules.json"] (provided.opens ["data"] obstructed).2.disk := by
  have held : obstructed.readText? ["data", "rules.json"] = some "not json" := by decide +kernel
  have unreadable : Document.parse? "not json" = none := by decide +kernel
  have opened : (provided.opens ["data"] obstructed).1 = .ok () := by decide +kernel
  have occupied : obstructed.node? (Document.quarantine (["data"] ++ ["rules.json"])) =
      some .folder := by
    rw [Document.quarantine_rules]
    rfl
  have loaded := Document.load_of_occupied held unreadable occupied
  have nothing : (Document.load ["data", "rules.json"] obstructed).1 = none := by
    rw [loaded]
  obtain ⟨rules, stored, readable⟩ := stored_defaults rfl rfl nothing isTime_welcoming opened
  have idle : leaves ["data"] obstructed provided = (provided.opens ["data"] obstructed).2.disk :=
    leaves_idle opened
  have still : (provided.opens ["data"] obstructed).2.disk.node?
      (Document.quarantine (["data"] ++ ["rules.json"])) = some .folder := by
    rw [← idle]
    exact occupied_leaves provided held unreadable occupied
  exact ⟨held, unreadable, opened, Document.not_retains_of_stored unreadable stored readable still⟩

end Life
end Engine
end CampusRules
