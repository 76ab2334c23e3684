import CampusRules.Proofs.Rule.Reading

/-!
# Rules round-trip

A rule may be read from many texts: with its fields in any order or in an array, with optional
fields absent or `null`, with names that nothing is known of. It is written in one form only. That
form reads as the rule again, so reading and writing once more changes nothing, neither the rule
nor what is written of it. The same holds of triggers, conditions and actions.

What can be read at all is exactly what is legible. In particular an operator or a frequency that
is kept by its name never has the name of one that is known.
-/

namespace CampusRules

open Json (Raw Refusal)

/-- Reading and writing fit together: what can be read is what is legible, and what is written of
it reads as the same value, whether it is passed on as a tree or as a text over several lines or on
one. Nothing is written differently the second time.

What `text` says of floats rests on the assumption that the reader of texts rounds them once, as
`Json.Lexeme.numberValue` does. The other parts are about trees, whose numbers are read already, and
rest on nothing of the kind. -/
structure RoundTrips {α : Type} (legible : α → Prop) (read : Raw → Except Refusal α)
    (write : α → Json) : Prop where
  readable : ∀ value, (∃ tree, read tree = .ok value) ↔ legible value
  tree : ∀ tree value, read tree = .ok value → read (.ofValue (write value)) = .ok value
  text : ∀ text value, read (.ofText text) = .ok value →
    read (.ofText (write value).prettyText) = .ok value ∧
      read (.ofText (write value).compactText) = .ok value
  stable : ∀ tree value again, read tree = .ok value →
    read (.ofValue (write value)) = .ok again → write again = write value

/-- Reading and writing fit together if legible values read back, and what is read is legible and
written within the limit that it was read within. -/
theorem RoundTrips.of_legible {α : Type} {legible : α → Prop} {read : Raw → Except Refusal α}
    {write : α → Json}
    (back : ∀ {value}, legible value → read (.ofValue (write value)) = .ok value)
    (sound : ∀ {tree value}, read tree = .ok value → legible value ∧
      (tree.Within Raw.nestingLimit → (write value).depth ≤ Raw.nestingLimit)) :
    RoundTrips legible read write := by
  constructor
  case readable =>
    intro value
    constructor
    · rintro ⟨tree, done⟩
      exact (sound done).1
    · intro reads
      exact ⟨.ofValue (write value), back reads⟩
  case tree =>
    intro tree value done
    exact back (sound done).1
  case text =>
    intro text value done
    obtain ⟨reads, within⟩ := sound done
    have room := within (Raw.within_ofText text)
    rw [Raw.ofText_prettyText room, Raw.ofText_compactText room]
    exact ⟨back reads, back reads⟩
  case stable =>
    intro tree value again done later
    have same : Except.ok again = Except.ok value := later.symm.trans (back (sound done).1)
    rw [Except.ok.inj same]

/-- Rules, triggers, conditions and actions that are read from any text or tree come back from what
is written of them. -/
theorem wire_format_round_trips :
    RoundTrips Rule.Legible Rule.read Rule.toJson ∧
      RoundTrips Trigger.Legible Trigger.read Trigger.toJson ∧
      RoundTrips Condition.Legible Condition.read Condition.toJson ∧
      RoundTrips Action.Legible Action.read Action.toJson := by
  refine ⟨?_, ?_, ?_, ?_⟩
  · refine .of_legible Rule.read_ofValue fun done => ?_
    obtain ⟨legible, bounded⟩ := Rule.of_read done
    exact ⟨legible, bounded 123⟩
  · refine .of_legible Trigger.read_ofValue fun done => ?_
    obtain ⟨legible, bounded⟩ := Trigger.of_read done
    exact ⟨legible, bounded 126⟩
  · refine .of_legible Condition.read_ofValue fun done => ?_
    obtain ⟨legible, bounded⟩ := Condition.of_read done
    exact ⟨legible, bounded 126⟩
  · refine .of_legible Action.read_ofValue fun done => ?_
    obtain ⟨legible, bounded⟩ := Action.of_read done
    exact ⟨legible, bounded 125⟩

/-- A rule as a list of its fields, the first ones only. Its condition has an operator that nothing
is known of, no value and no combinator, and its action is named by an object. -/
def listedRule : String :=
  "[\"r\", \"Listed\", \"\", [\"event\", \"grade_posted\"], [[\"grade\", \"resembles\", null, null]],
    [[\x7b\"email\": null\x7d, \x7b\"to\": \"a@x.com\", \"subject\": 1.50\x7d]], false,
    \"2026-03-02T09:00:00+01:00\"]"

/-- The listed rule is read, and written out in full it reads as the same rule. -/
theorem listedRule_round_trips :
    ∃ rule, Rule.read (.ofText listedRule) = .ok rule ∧
      rule.conditions.map Condition.operator = [.other "resembles"] ∧
      Rule.read (.ofText rule.toJson.compactText) = .ok rule := by
  have operators : (Rule.read (.ofText listedRule)).toOption.map
      (fun rule => rule.conditions.map Condition.operator) =
        some [.other "resembles"] := by decide +kernel
  cases done : Rule.read (.ofText listedRule) with
  | error refusal =>
    rw [done] at operators
    cases operators
  | ok rule =>
    rw [done] at operators
    exact ⟨rule, rfl, Option.some.inj operators,
      (wire_format_round_trips.1.text listedRule rule done).2⟩

end CampusRules
