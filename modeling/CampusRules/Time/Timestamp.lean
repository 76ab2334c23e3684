import CampusRules.Number.Decimal
import CampusRules.Text.Blank
import CampusRules.Time.Instant

/-!
# Timestamps as text

Reading is lenient in layout. Date, time and offset are separated as in
`2024-01-15T10:00:00Z`, where `T` may be small or a space, blanks may stand
around the separators, numbers may be shorter than usual, a signed year may be
longer, and the offset may be `Z`, `UTC`, or signed hours and minutes. It is
strict in meaning: every field must be in range and the date must exist. The
second sixty is a leap second.

Writing always gives universal time, with a fraction of none, three, six or nine
digits, the fewest that are exact. Years outside 0000 to 9999 carry a sign.
-/

namespace CampusRules.Timestamp

/-- Splits off between one and `most` digits. -/
def digits? (most : Nat) (text : List Char) : Option (Nat × List Char) :=
  let run := (text.takeWhile isDigit).take most
  if run.isEmpty then none else some (numeral run, text.drop run.length)

/-- Splits off a number behind optional blanks. -/
def number? (most : Nat) (text : List Char) : Option (Nat × List Char) :=
  digits? most (Text.trimStart text)

/-- Splits off a year behind optional blanks: up to four digits, or a sign and
any number of them. -/
def year? (text : List Char) : Option (Int × List Char) :=
  match Text.trimStart text with
  | '-' :: rest => (digits? rest.length rest).map fun (year, tail) => (-(year : Int), tail)
  | '+' :: rest => (digits? rest.length rest).map fun (year, tail) => ((year : Int), tail)
  | rest => (digits? 4 rest).map fun (year, tail) => ((year : Int), tail)

/-- Passes a separator behind optional blanks. -/
def separator? (mark : Char) (text : List Char) : Option (List Char) :=
  match Text.trimStart text with
  | first :: rest => if first = mark then some rest else none
  | [] => none

/-- Splits off the fraction of a second, in nanoseconds. Digits after the ninth
are passed over. -/
def fraction? (text : List Char) : Option (Nat × List Char) :=
  match text with
  | '.' :: rest =>
    let run := (rest.takeWhile isDigit).take 9
    if run.isEmpty then none
    else some (numeral run * Nat.pow 10 (9 - run.length), rest.dropWhile isDigit)
  | rest => some (0, rest)

/-- Splits off two digits. -/
def twoDigits? : List Char → Option (Nat × List Char)
  | first :: second :: rest => do
    let tens ← digitValue? first
    let units ← digitValue? second
    some (10 * tens + units, rest)
  | _ => none

/-- Splits off an offset in seconds: a letter Z, the letters UTC, or a sign, two
digits of hours, optional colons or blanks, and two digits of minutes. -/
def offset? (text : List Char) : Option (Int × List Char) :=
  let signed (sign : Int) (rest : List Char) : Option (Int × List Char) := do
    let (hours, afterHours) ← twoDigits? rest
    let (minutes, afterMinutes) ←
      twoDigits? (afterHours.dropWhile fun character => character == ':' || Text.isBlank character)
    if minutes < 60 then some (sign * (hours * 3600 + minutes * 60 : Nat), afterMinutes) else none
  match text with
  | 'Z' :: rest | 'z' :: rest => some (0, rest)
  | '+' :: rest => signed 1 rest
  | '-' :: rest | '\u2212' :: rest => signed (-1) rest
  | first :: second :: third :: rest =>
    if [first, second, third].map Char.toUpper = ['U', 'T', 'C'] then some (0, rest) else none
  | _ => none

/-- The date and time fields of a text, and its offset. -/
structure Fields where
  date : Date
  hour : Nat
  minute : Nat
  second : Nat
  nanoseconds : Nat
  offset : Int

/-- Splits a whole text into its fields. -/
def fields? (text : List Char) : Option Fields := do
  let (year, text) ← year? text
  let text ← separator? '-' text
  let (month, text) ← number? 2 text
  let text ← separator? '-' text
  let (day, text) ← number? 2 text
  let text ← match text with
    | 'T' :: rest | 't' :: rest | ' ' :: rest => some rest
    | _ => none
  let (hour, text) ← number? 2 text
  let text ← separator? ':' text
  let (minute, text) ← number? 2 text
  let text ← separator? ':' text
  let (second, text) ← number? 2 text
  let (nanoseconds, text) ← fraction? text
  let (offset, text) ← offset? (Text.trimStart text)
  if Text.trimStart text = [] then
    some ⟨⟨year, month, day⟩, hour, minute, second, nanoseconds, offset⟩
  else none

/-- The reading that the fields describe, if they are in range. -/
def Fields.reading? (fields : Fields) : Option Reading :=
  let seconds := Calendar.dayOf fields.date * 86400 + fields.hour * 3600 + fields.minute * 60 +
    (min fields.second 59 : Nat) - fields.offset
  let inRange (day : Int) : Bool := Calendar.firstDay ≤ day && day ≤ Calendar.lastDay
  if Calendar.isDate fields.date && fields.hour < 24 && fields.minute < 60 && fields.second ≤ 60 &&
      fields.offset.natAbs < 86400 && inRange (Calendar.dayOf fields.date) &&
      inRange (seconds / 86400) then
    some ⟨⟨seconds, fields.nanoseconds + if fields.second = 60 then 1000000000 else 0⟩,
      fields.offset⟩
  else none

/-- Reads a timestamp, keeping its offset. -/
def parseReading? (text : String) : Option Reading :=
  (fields? text.toList).bind Fields.reading?

/-- Reads a timestamp. -/
def parse? (text : String) : Option Instant := (parseReading? text).map Reading.instant

/-- A number with leading zeros up to a width. -/
def padded (width number : Nat) : List Char :=
  let digits := decimalDigits number
  List.replicate (width - digits.length) '0' ++ digits

/-- A year: four digits, or a sign and at least four. -/
def writeYear (year : Int) : List Char :=
  if 0 ≤ year ∧ year ≤ 9999 then padded 4 year.toNat
  else (if year < 0 then '-' else '+') :: padded 4 year.natAbs

/-- A fraction of a second with the fewest of none, three, six and nine digits. -/
def writeFraction (nanoseconds : Nat) : List Char :=
  if nanoseconds = 0 then []
  else if nanoseconds % 1000000 = 0 then '.' :: padded 3 (nanoseconds / 1000000)
  else if nanoseconds % 1000 = 0 then '.' :: padded 6 (nanoseconds / 1000)
  else '.' :: padded 9 nanoseconds

/-- A fraction of a second with three digits, further ones cut off. -/
def writeMilliseconds (nanoseconds : Nat) : List Char :=
  '.' :: padded 3 (nanoseconds / 1000000)

/-- An instant in universal time with its fraction written by `fraction`. -/
def writeWith (fraction : Nat → List Char) (instant : Instant) : List Char :=
  let date := Calendar.dateOf (instant.dayAt 0)
  let second := instant.secondOfDayAt 0
  let leap := instant.nanoseconds / 1000000000
  writeYear date.year ++ '-' :: padded 2 date.month ++ '-' :: padded 2 date.day ++
    'T' :: padded 2 (second / 3600) ++ ':' :: padded 2 (second / 60 % 60) ++
    ':' :: padded 2 (second % 60 + leap) ++ fraction (instant.nanoseconds % 1000000000) ++ ['Z']

/-- The text of an instant. -/
def write (instant : Instant) : String := String.ofList (writeWith writeFraction instant)

/-- The text of an instant to the millisecond. -/
def writeToMillisecond (instant : Instant) : String :=
  String.ofList (writeWith writeMilliseconds instant)

end CampusRules.Timestamp
