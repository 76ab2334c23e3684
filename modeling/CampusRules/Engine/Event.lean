import CampusRules.Rule.Basic

/-!
# Events

The engine tells what happens to rules, and the executor what happens to single
actions. Events are sent to whoever listens; a listener that falls behind by more
than `capacity` events loses the oldest of them.
-/

namespace CampusRules

/-- Something that happened to a rule. -/
inductive Event where
  | triggered (id reason : String)
  | skipped (id : String)
  | executed (id : String) (count : UInt64)
  | failed (id error : String)
  | created (id : String)
  | updated (id : String)
  | removed (id : String)
  deriving DecidableEq, Repr

/-- The rule that an event is about. -/
def Event.id : Event → String
  | triggered id _ | skipped id | executed id _ | failed id _ | created id | updated id
  | removed id => id

/-- Something that happened to an action of a rule. -/
inductive ActionEvent where
  | started (id : String) (index : Nat) (kind : ActionKind)
  | completed (id : String) (index : Nat)
  | failed (id : String) (index : Nat) (error : String)
  deriving DecidableEq

namespace Event

/-- How many events a listener may have pending. -/
def capacity : Nat := 64

/-- How many events a listener has lost that had all of these pending. -/
def lost {α : Type} (sent : List α) : Nat := sent.length - capacity

/-- The events that such a listener still receives. -/
def kept {α : Type} (sent : List α) : List α := sent.drop (lost sent)

/-- A listener receives no more than the capacity, and what is lost was sent. -/
theorem lost_add_length_kept {α : Type} (sent : List α) :
    lost sent + (kept sent).length = sent.length ∧ (kept sent).length ≤ capacity := by
  simp only [kept, lost, List.length_drop]
  omega

end Event
end CampusRules
