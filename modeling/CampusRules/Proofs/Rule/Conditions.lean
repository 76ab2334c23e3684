import CampusRules.Rule.Conditions

/-!
# When a chain of conditions holds

A chain of conditions is folded from left to right, so what is found out about its beginning is
one running result, and the combinator of the last condition read so far waits for the next one.
Nothing before a condition that `or` leads into matters if this condition holds: the chain has
started anew there. From a start on, every condition that `and` leads into has to hold, and no
other.

So a chain holds exactly if there is such a start with nothing broken behind it. The beginning of
the chain is a start, too. The induction is over the chain, for any running result and any
combinator that waits; both change with every condition.
-/

namespace CampusRules

/-- What combining makes true: a result that a condition led into by `and` does not break, or a
condition led into by `or`. -/
theorem Combinator.combine_iff (into : Combinator) (result next : Bool) :
    into.combine result next = true ↔
      (result = true ∧ (into = .and → next = true)) ∨ (into = .or ∧ next = true) := by
  cases into <;> cases result <;> cases next <;> decide

namespace Conditions

/-- The combinator into the condition at a position: that of the condition before it. What leads
into the first is given. -/
def into (first : Combinator) (conditions : List Condition) : Nat → Combinator
  | 0 => first
  | before + 1 => (conditions[before]?.map Condition.combinator).getD .and

/-- The combinator that a list of conditions leaves for the next one. -/
def exit (conditions : List Condition) : Combinator :=
  (conditions.getLast?.bind Condition.next).getD .and

/-- A chain starts anew at a position: `or` leads into the condition there, and it holds. -/
def Starts (context : Json) (first : Combinator) (conditions : List Condition) (position : Nat) :
    Prop :=
  ∃ condition, conditions[position]? = some condition ∧
    into first conditions position = .or ∧ condition.holds context = true

/-- A chain is unbroken from a position on: every condition from there on that `and` leads into
holds. -/
def Unbroken (context : Json) (first : Combinator) (conditions : List Condition) (start : Nat) :
    Prop :=
  ∀ position condition, start ≤ position → conditions[position]? = some condition →
    into first conditions position = .and → condition.holds context = true

variable (context : Json) (first : Combinator) (condition : Condition) (rest : List Condition)

/-- Behind its first condition, a chain is a chain that the combinator of this one leads into. -/
theorem into_cons_succ (position : Nat) :
    into first (condition :: rest) (position + 1) = into condition.combinator rest position := by
  cases position <;> rfl

/-- A chain starts anew with its first condition if `or` leads into it and it holds. -/
theorem starts_cons_zero :
    Starts context first (condition :: rest) 0 ↔
      first = .or ∧ condition.holds context = true := by
  simp [Starts, into]

/-- Further starts are those of the rest. -/
theorem starts_cons_succ (position : Nat) :
    Starts context first (condition :: rest) (position + 1) ↔
      Starts context condition.combinator rest position := by
  simp only [Starts, into_cons_succ, List.getElem?_cons_succ]

/-- Behind its first condition, a chain is unbroken as the rest is. -/
theorem unbroken_cons_succ (start : Nat) :
    Unbroken context first (condition :: rest) (start + 1) ↔
      Unbroken context condition.combinator rest start := by
  constructor
  · intro unbroken position member behind there joined
    refine unbroken (position + 1) member (Nat.succ_le_succ behind) there ?_
    rw [into_cons_succ, joined]
  · rintro unbroken (_ | position) member behind there joined
    · exact absurd behind (Nat.not_succ_le_zero start)
    · rw [into_cons_succ] at joined
      exact unbroken position member (Nat.le_of_succ_le_succ behind) there joined

/-- A whole chain is unbroken if the rest is, and its first condition breaks nothing. -/
theorem unbroken_cons_zero :
    Unbroken context first (condition :: rest) 0 ↔
      (first = .and → condition.holds context = true) ∧
        Unbroken context condition.combinator rest 0 := by
  rw [← unbroken_cons_succ context first]
  constructor
  · intro unbroken
    exact ⟨unbroken 0 condition (Nat.le_refl 0) rfl,
      fun position member behind => unbroken position member (Nat.zero_le position)⟩
  · rintro ⟨here, behind⟩ (_ | position) member _ there joined
    · cases there
      exact here joined
    · exact behind (position + 1) member (Nat.succ_le_succ (Nat.zero_le position)) there joined

/-- A chain has an unbroken part behind a start if it is unbroken behind its first condition and
starts anew with it, or if the rest has such a part. -/
theorem exists_start_cons :
    (∃ start, Starts context first (condition :: rest) start ∧
        Unbroken context first (condition :: rest) (start + 1)) ↔
      ((first = .or ∧ condition.holds context = true) ∧
          Unbroken context condition.combinator rest 0) ∨
        ∃ start, Starts context condition.combinator rest start ∧
          Unbroken context condition.combinator rest (start + 1) := by
  rw [← Nat.or_exists_add_one, starts_cons_zero, unbroken_cons_succ]
  simp only [starts_cons_succ, unbroken_cons_succ]

/-- What is left of a chain holds, given a running result, if this result is true and nothing
breaks it, or if the chain starts anew and nothing behind that breaks it. -/
theorem holdFrom_iff (result : Bool) (conditions : List Condition) :
    holdFrom context result first conditions = true ↔
      (result = true ∧ Unbroken context first conditions 0) ∨
        ∃ start, Starts context first conditions start ∧
          Unbroken context first conditions (start + 1) := by
  induction conditions generalizing result first with
  | nil => simp [holdFrom, Starts, Unbroken]
  | cons condition rest inductionHypothesis =>
    -- The first condition either lets the running result stand or is a start itself.
    rw [holdFrom, inductionHypothesis, Combinator.combine_iff, or_and_right, or_assoc, and_assoc,
      ← unbroken_cons_zero, ← exists_start_cons]

/-- The rest of a chain leaves the combinator that the chain leaves, unless it is empty. -/
theorem exit_cons :
    exit (condition :: rest) = if rest = [] then condition.combinator else exit rest := by
  cases rest with
  | nil => rfl
  | cons next others => simp [exit, List.getLast?_cons_cons]

/-- Two lists in a row: the second goes on with the result of the first, and with the combinator
that the first leaves or, where it is empty, the one that waits. -/
theorem holdFrom_append (result : Bool) (earlier later : List Condition) :
    holdFrom context result first (earlier ++ later) =
      holdFrom context (holdFrom context result first earlier)
        (if earlier = [] then first else exit earlier) later := by
  induction earlier generalizing result first with
  | nil => rfl
  | cons condition rest inductionHypothesis =>
    rw [List.cons_append, holdFrom, inductionHypothesis, holdFrom, exit_cons,
      if_neg (List.cons_ne_nil condition rest)]

/-- A list of conditions goes on from a part of it with the result of this part, and with the
combinator that its last condition leaves. -/
theorem hold_append (earlier later : List Condition) :
    hold (earlier ++ later) context =
      holdFrom context (hold earlier context) (exit earlier) later := by
  have waits : (if earlier = [] then .and else exit earlier) = exit earlier := by
    split
    · rename_i empty
      rw [empty]
      rfl
    · rfl
  rw [hold, holdFrom_append, waits]
  rfl

/-- A list of conditions holds exactly if it is unbroken from its beginning on, or behind a
condition that holds and that `or` leads into. The combinator of its last condition has no part in
this. However a list is split, all that the second part gets to know of the first is the result of
the first, and the combinator that its last condition leaves. -/
theorem hold_iff_unbroken_behind_start :
    (∀ conditions, hold conditions context = true ↔
      Unbroken context .and conditions 0 ∨
        ∃ start, Starts context .and conditions start ∧
          Unbroken context .and conditions (start + 1)) ∧
    (∀ before (last : Condition) (next : Option Combinator),
      hold (before ++ [{ last with next }]) context = hold (before ++ [last]) context) ∧
    ∀ earlier later, hold (earlier ++ later) context =
      holdFrom context (hold earlier context) (exit earlier) later := by
  refine ⟨?_, ?_, hold_append context⟩
  · intro conditions
    rw [hold, holdFrom_iff, eq_self, true_and]
  · intro before last next
    rw [hold_append, hold_append]
    rfl

/-- What holds `or` what holds `and` what does not hold: the last condition breaks the chain, which
starts anew nowhere behind it. -/
example : hold [⟨"", .isEmpty, .null, some .or⟩, ⟨"", .isEmpty, .null, some .and⟩,
    ⟨"", .isNotEmpty, .null, none⟩] .null = false := by decide

end Conditions
end CampusRules
