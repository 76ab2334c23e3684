import CampusRules.Time.Timestamp

/-!
# Times of day

A time of day is an hour and a minute, written as two numbers of one or two
digits with a colon between them. Blanks may stand before each number, and
nothing may follow the second.
-/

namespace CampusRules

/-- A time of day to the minute. -/
structure TimeOfDay where
  hour : Nat
  minute : Nat
  deriving DecidableEq, Repr

namespace TimeOfDay

/-- Reads a time of day. -/
def parse? (text : String) : Option TimeOfDay := do
  let (hour, rest) ← Timestamp.number? 2 text.toList
  let rest ← match rest with
    | ':' :: tail => some tail
    | _ => none
  let (minute, rest) ← Timestamp.number? 2 rest
  if rest = [] ∧ hour < 24 ∧ minute < 60 then some ⟨hour, minute⟩ else none

/-- The text of a time of day, with its seconds. -/
def write (time : TimeOfDay) : String :=
  String.ofList
    (Timestamp.padded 2 time.hour ++ ':' :: Timestamp.padded 2 time.minute ++ [':', '0', '0'])

end TimeOfDay
end CampusRules
