import CampusRules.Proofs.Engine.Evolution
import CampusRules.Proofs.Storage.Document

/-!
# What an engine opens on

An engine with a store opens on the valid rules that are stored there, or, where nothing can be
loaded, on the default rules or none. Either way its rules leave room for the document that they
are stored in: those that were stored did so then, and the default rules are shallow.
-/

namespace CampusRules

open Json (Raw)

/-- The default rules are legible: each of them reads back from its text. -/
theorem DefaultRules.legible {new : NewRule} (member : new ∈ all) : new.Legible := by
  have read : ∀ new ∈ all, (Rule.read (.ofValue (Rule.ofNew new "" ⟨0, 0⟩).toJson)).toOption =
      some (Rule.ofNew new "" ⟨0, 0⟩) := by decide +kernel
  have here := read new member
  cases outcome : Rule.read (.ofValue (Rule.ofNew new "" ⟨0, 0⟩).toJson) with
  | error refusal =>
    rw [outcome] at here
    cases here
  | ok rule =>
    rw [outcome] at here
    obtain rfl : rule = Rule.ofNew new "" ⟨0, 0⟩ := Option.some.inj here
    have legible := (Rule.of_read outcome).1
    exact ⟨legible.trigger, legible.conditions, legible.actions⟩

/-- How deep a new rule is nested depends on neither its identifier nor the time. -/
theorem Rule.depth_ofNew (new : NewRule) (fresh : String) (now : Instant) :
    (Rule.ofNew new fresh now).toJson.depth = (Rule.ofNew new "" ⟨0, 0⟩).toJson.depth := by
  simp only [toJson, ofNew, optionalMember, Instant.toJson, List.cons_append, List.nil_append,
    Json.depth, Json.depthMembers]

/-- The default rules leave room for their document. -/
theorem DefaultRules.fits {new : NewRule} (member : new ∈ all) (fresh : String) (now : Instant) :
    Document.Fits (Rule.ofNew new fresh now) := by
  have shallow : ∀ new ∈ all, Document.Fits (Rule.ofNew new "" ⟨0, 0⟩) := by decide +kernel
  rw [Document.Fits, Rule.depth_ofNew]
  exact shallow new member

namespace Engine

variable {σ : Type}

/-- An engine opens on the valid rules that are stored, and leaves the disk as it is. -/
theorem start_of_stored {config : EngineConfig} {location : Location}
    (place : config.storage = some location) {disk : Disk} {stored : List Rule}
    (loaded : (Document.load location disk).1 = some stored) (supply : Supply) (outside : σ) :
    start config disk supply outside =
      (.ok (), {
        rules := stored.filter Rule.isValid
        storage := some location
        disk
        supply
        outside }) := by
  have same := Document.load_snd loaded
  rcases looked : Document.load location disk with ⟨found, after⟩
  rw [looked] at loaded same
  obtain rfl : found = some stored := loaded
  obtain rfl : after = disk := same
  simp only [start, stored?, place, looked]

/-- An engine that has tried to load its rules, and knows none. -/
def unstocked (location : Location) (disk : Disk) (supply : Supply) (outside : σ) : Engine σ where
  storage := some location
  disk := (Document.load location disk).2
  supply
  outside

/-- Where nothing can be loaded, an engine opens on the default rules, if it is to have them, and
commits them. -/
theorem start_of_nothing {config : EngineConfig} {location : Location}
    (place : config.storage = some location) {disk : Disk}
    (nothing : (Document.load location disk).1 = none) (supply : Supply) (outside : σ) :
    start config disk supply outside =
      let loaded := unstocked location disk supply outside
      if config.installDefaults then
        (loaded.makeAll DefaultRules.all).2.commit (loaded.makeAll DefaultRules.all).1
      else (.ok (), loaded) := by
  rcases looked : Document.load location disk with ⟨found, after⟩
  rw [looked] at nothing
  obtain rfl : found = none := nothing
  simp only [start, stored?, place, looked, unstocked]

/-- A commit that succeeds makes the rules the registry, and stores all of them. -/
theorem commit_of_ok {rules : List Rule} {engine : Engine σ}
    (done : (engine.commit rules).1 = .ok ()) :
    ∃ disk, (engine.commit rules).2 = { engine with rules, disk } ∧
      ∀ location, engine.storage = some location →
        disk.read? location = some (Document.text rules).toUTF8 := by
  have others := save_changes_disk rules engine
  have outcome := save_outcome rules engine
  rcases result : engine.save rules with ⟨answer, saved⟩
  rw [result] at others outcome
  simp only [commit, result] at done ⊢
  rcases outcome with ⟨_, rfl, _⟩ | ⟨rfl, whole⟩
  · cases done
  · refine ⟨saved.disk, ?_, whole⟩
    dsimp only at others ⊢
    rw [others]

/-- Making a rule never sets the clock. -/
theorem make_clock (new : NewRule) (engine : Engine σ) :
    (engine.make new).2.supply.clock = engine.supply.clock := by
  unfold make look
  dsimp only
  split
  · rfl
  · rfl

/-- Making rules changes nothing but what the world still supplies, and never sets the clock. -/
theorem makeAll_engine (requests : List NewRule) (engine : Engine σ) :
    ∃ supply, supply.clock = engine.supply.clock ∧
      (engine.makeAll requests).2 = { engine with supply } := by
  induction requests generalizing engine with
  | nil => exact ⟨engine.supply, rfl, rfl⟩
  | cons new rest inductionHypothesis =>
    obtain ⟨supply, clock, same⟩ := inductionHypothesis (engine.make new).2
    exact ⟨supply, clock.trans (make_clock new engine), same⟩

/-- An engine that opens on the default rules, where nothing could be loaded, has made and stored
them. -/
theorem installed_of_nothing {config : EngineConfig} {location : Location}
    (place : config.storage = some location) (install : config.installDefaults = true)
    {disk : Disk} (nothing : (Document.load location disk).1 = none) {supply : Supply}
    {outside : σ} (opened : (start config disk supply outside).1 = .ok ()) :
    List.Forall₂ IsMade DefaultRules.all (start config disk supply outside).2.rules ∧
      (start config disk supply outside).2.disk.read? location =
        some (Document.text (start config disk supply outside).2.rules).toUTF8 := by
  rw [start_of_nothing place nothing] at opened ⊢
  dsimp only at opened ⊢
  rw [if_pos install] at opened ⊢
  obtain ⟨supplied, _, made⟩ :=
    makeAll_engine DefaultRules.all (unstocked location disk supply outside)
  obtain ⟨after, committed, stored⟩ := commit_of_ok opened
  rw [committed]
  refine ⟨makeAll_made _ _, stored location ?_⟩
  rw [made]
  rfl

/-- Legible requests make legible rules, if the clock shows times. -/
theorem legible_makeAll {requests : List NewRule} (legible : ∀ new ∈ requests, new.Legible)
    {engine : Engine σ} (clock : ∀ look, (engine.supply.clock look).instant.IsTime) :
    ∀ rule ∈ (engine.makeAll requests).1, rule.Legible := by
  induction requests generalizing engine with
  | nil =>
    intro rule member
    cases member
  | cons new rest inductionHypothesis =>
    have next : ∀ look, ((engine.make new).2.supply.clock look).instant.IsTime := by
      rw [make_clock]
      exact clock
    intro rule member
    rcases List.mem_cons.mp member with rfl | later
    · exact Rule.legible_ofNew (legible new List.mem_cons_self) _ (clock _)
    · exact inductionHypothesis
        (fun other among => legible other (List.mem_cons_of_mem _ among)) next rule later

/-- Whatever an engine opens on leaves room for the document that it is stored in. -/
theorem fits_start {config : EngineConfig} {location : Location}
    (place : config.storage = some location) {disk : Disk} {supply : Supply} {outside : σ}
    (opened : (start config disk supply outside).1 = .ok ()) :
    ∀ rule ∈ (start config disk supply outside).2.rules, Document.Fits rule := by
  cases loaded : (Document.load location disk).1 with
  | some stored =>
    rw [start_of_stored place loaded]
    intro rule member
    rw [Document.load_fst] at loaded
    obtain ⟨content, _, parsed⟩ := Option.bind_eq_some_iff.mp loaded
    exact (Document.of_parse? parsed (List.mem_filter.mp member).1).2
  | none =>
    rw [start_of_nothing place loaded] at opened ⊢
    dsimp only at opened ⊢
    by_cases install : config.installDefaults = true
    · rw [if_pos install] at opened ⊢
      obtain ⟨disk, committed, _⟩ := commit_of_ok opened
      rw [committed]
      intro rule member
      obtain ⟨new, asked, supply, now, rfl⟩ := made_of_mem (makeAll_made _ _) member
      exact DefaultRules.fits asked _ _
    · rw [if_neg install]
      intro rule member
      cases member

end Engine
end CampusRules
