import CampusRules.Time.Calendar

/-!
# Points in time

An `Instant` is a count of seconds since the beginning of 1970 in universal time
and the nanoseconds into that second. A leap second is the second before it with
nanoseconds from one thousand million on, so the count of seconds has no gap.

A `Reading` is an instant together with the offset, in seconds east of universal
time, of the clock that showed it. Dates and months are those of that clock.
-/

namespace CampusRules

/-- A point in time. -/
structure Instant where
  seconds : Int
  nanoseconds : Nat
  deriving DecidableEq, Repr, Inhabited

/-- A point in time as a clock with an offset shows it. -/
structure Reading where
  instant : Instant
  offset : Int
  deriving DecidableEq, Repr

namespace Instant

/-- The whole milliseconds since the beginning of 1970; inside a leap second they
run on past the thousandth. -/
def milliseconds (instant : Instant) : Int :=
  instant.seconds * 1000 + (instant.nanoseconds / 1000000 : Nat)

/-- Whether the instant lies inside a leap second. -/
def isLeapSecond (instant : Instant) : Bool := 1000000000 ≤ instant.nanoseconds

/-- The number of the day on which a clock with an offset shows the instant. -/
def dayAt (instant : Instant) (offset : Int) : Int := (instant.seconds + offset) / 86400

/-- The second of that day. -/
def secondOfDayAt (instant : Instant) (offset : Int) : Nat :=
  ((instant.seconds + offset) % 86400).toNat

/-- The instant as a clock that shows universal time. -/
def universal (instant : Instant) : Reading := ⟨instant, 0⟩

end Instant

namespace Reading

/-- The number of the day that the clock shows. -/
def day (reading : Reading) : Int := reading.instant.dayAt reading.offset

/-- The month that the clock shows, counted over all years. -/
def month (reading : Reading) : Int := Calendar.monthsAt reading.day

end Reading
end CampusRules
