import CampusRules.Proofs.Number.Decimal
import CampusRules.Proofs.Time.Calendar
import CampusRules.Time.Timestamp

/-!
# Written times read back

A time that a clock can show is written field by field, and each field stands in front of
something that no digit is, so it reads as the number it was written for. The fields then name
the time: the date of its day is a date, and a leap second is the sixtieth of its minute.

What reads at all reads as such a time, whatever the layout and the offset: an offset is made of
whole minutes, so the sixtieth second stays at the end of one.
-/

namespace CampusRules

/-- A point in time that a clock can show: its day is in range, and only the last second of a
minute may be followed by a leap second. -/
structure Instant.IsTime (instant : Instant) : Prop where
  first : Calendar.firstDay ≤ instant.dayAt 0
  last : instant.dayAt 0 ≤ Calendar.lastDay
  nanoseconds : instant.nanoseconds < 2000000000
  leap : 1000000000 ≤ instant.nanoseconds → instant.seconds % 60 = 59

namespace Timestamp

/-- No digit is a blank. -/
theorem isBlank_of_isDigit {character : Char} (digit : isDigit character = true) :
    Text.isBlank character = false := by
  obtain ⟨low, high⟩ := (isDigit_iff character).mp digit
  have above : 48 ≤ character.toNat := UInt32.le_iff_toNat_le.mp low
  have below : character.toNat ≤ 57 := UInt32.le_iff_toNat_le.mp high
  simp only [Text.isBlank, Bool.or_eq_false_iff, Bool.and_eq_false_iff, decide_eq_false_iff_not,
    beq_eq_false_iff_ne]
  omega

/-- Digits in front of a place where a run of them ends are split off as a number. -/
theorem digits?_run {run rest : List Char} {most : Nat}
    (all : ∀ digit ∈ run, isDigit digit = true) (some' : run ≠ []) (fits : run.length ≤ most)
    (stops : Stops rest) : digits? most (run ++ rest) = some (numeral run, rest) := by
  have taken : ((run ++ rest).takeWhile isDigit).take most = run := by
    rw [takeWhile_digits all stops, List.take_of_length_le fits]
  have filled : run.isEmpty = false := by
    cases run with
    | nil => exact absurd rfl some'
    | cons _ _ => rfl
  simp only [digits?, taken, filled, List.drop_left]
  rfl

/-- A padded number consists of digits. -/
theorem isDigit_padded {width number : Nat} {digit : Char} (member : digit ∈ padded width number) :
    isDigit digit = true := by
  rcases List.mem_append.mp member with zero | significant
  · rw [List.eq_of_mem_replicate zero]
    rfl
  · exact isDigit_decimalDigits significant

/-- A padded number stands for the number. -/
theorem numeral_padded (width number : Nat) : numeral (padded width number) = number := by
  rw [padded, numeral_append, numeral_zeros, numeral_decimalDigits, Nat.zero_mul, Nat.zero_add]

/-- A padded number has at least one digit. -/
theorem padded_ne_nil (width number : Nat) : padded width number ≠ [] := by
  intro none
  exact decimalDigits_ne_nil number (List.append_eq_nil_iff.mp none).2

/-- A number that fits its width is padded to it. -/
theorem length_padded {width number : Nat} (positive : 0 < width) (small : number < 10 ^ width) :
    (padded width number).length = width := by
  have fits : (decimalDigits number).length ≤ width :=
    (Nat.length_toDigits_le_iff (by decide) positive).mpr small
  rw [padded, List.length_append, List.length_replicate]
  omega

/-- A padded number begins with a digit. -/
theorem padded_head (width number : Nat) :
    ∃ first others, padded width number = first :: others ∧ isDigit first = true := by
  cases shape : padded width number with
  | nil => exact absurd shape (padded_ne_nil width number)
  | cons first others => exact ⟨first, others, rfl, isDigit_padded (shape ▸ List.mem_cons_self)⟩

/-- There are no blanks to pass over in front of a padded number. -/
theorem trimStart_padded (width number : Nat) (rest : List Char) :
    Text.trimStart (padded width number ++ rest) = padded width number ++ rest := by
  obtain ⟨first, others, shape, digit⟩ := padded_head width number
  rw [shape]
  refine List.dropWhile_cons_of_neg ?_
  rw [isBlank_of_isDigit digit]
  exact Bool.false_ne_true

/-- A number of two digits reads back. -/
theorem number?_padded {number : Nat} (small : number < 100) {rest : List Char}
    (stops : Stops rest) : number? 2 (padded 2 number ++ rest) = some (number, rest) := by
  have length : (padded 2 number).length = 2 := length_padded (by decide) small
  rw [number?, trimStart_padded,
    digits?_run (fun _ => isDigit_padded) (padded_ne_nil 2 number) length.le stops, numeral_padded]

/-- A year reads back. -/
theorem year?_writeYear (year : Int) {rest : List Char} (stops : Stops rest) :
    year? (writeYear year ++ rest) = some (year, rest) := by
  unfold writeYear
  by_cases common : 0 ≤ year ∧ year ≤ 9999
  · rw [if_pos common]
    have length : (padded 4 year.toNat).length = 4 := length_padded (by decide) (by omega)
    have read := digits?_run (fun _ => isDigit_padded) (padded_ne_nil 4 year.toNat) length.le stops
    rw [numeral_padded] at read
    have whole : (year.toNat : Int) = year := Int.toNat_of_nonneg common.1
    obtain ⟨first, others, shape, digit⟩ := padded_head 4 year.toNat
    rw [year?, trimStart_padded]
    split
    · rename_i tail begins
      rw [shape] at begins
      obtain ⟨rfl, _⟩ := List.cons.inj begins
      cases digit
    · rename_i tail begins
      rw [shape] at begins
      obtain ⟨rfl, _⟩ := List.cons.inj begins
      cases digit
    · rw [read, Option.map_some]
      simp only [whole]
  · rw [if_neg common]
    have fits : (padded 4 year.natAbs).length ≤ (padded 4 year.natAbs ++ rest).length := by
      rw [List.length_append]
      omega
    have read := digits?_run (fun _ => isDigit_padded) (padded_ne_nil 4 year.natAbs) fits stops
    rw [numeral_padded] at read
    by_cases negative : year < 0
    · have whole : -(year.natAbs : Int) = year := by omega
      have signed : ∀ text, year? ('-' :: text) =
          (digits? text.length text).map fun found => (-(found.1 : Int), found.2) := fun _ => rfl
      rw [if_pos negative, List.cons_append, signed, read, Option.map_some]
      simp only [whole]
    · have whole : (year.natAbs : Int) = year := by omega
      have signed : ∀ text, year? ('+' :: text) =
          (digits? text.length text).map fun found => ((found.1 : Int), found.2) := fun _ => rfl
      rw [if_neg negative, List.cons_append, signed, read, Option.map_some]
      simp only [whole]

/-- A fraction of a second with a given number of digits reads back. -/
theorem fraction?_padded {width number : Nat} (positive : 0 < width) (most : width ≤ 9)
    (small : number < 10 ^ width) {rest : List Char} (stops : Stops rest) :
    fraction? ('.' :: padded width number ++ rest) = some (number * 10 ^ (9 - width), rest) := by
  have length : (padded width number).length = width := length_padded positive small
  have taken : ((padded width number ++ rest).takeWhile isDigit).take 9 = padded width number := by
    rw [takeWhile_digits (fun _ => isDigit_padded) stops,
      List.take_of_length_le (by rw [length]; exact most)]
  obtain ⟨first, others, shape, _⟩ := padded_head width number
  have filled : (padded width number).isEmpty = false := by rw [shape]; rfl
  rw [List.cons_append, fraction?]
  simp only [taken, filled, numeral_padded, length,
    dropWhile_digits (fun _ => isDigit_padded) stops]
  rfl

/-- A fraction of a second reads back. -/
theorem fraction?_writeFraction {nanoseconds : Nat} (small : nanoseconds < 1000000000)
    {rest : List Char} (stops : Stops rest) (noPoint : ∀ first ∈ rest.head?, first ≠ '.') :
    fraction? (writeFraction nanoseconds ++ rest) = some (nanoseconds, rest) := by
  unfold writeFraction
  by_cases none : nanoseconds = 0
  · rw [if_pos none, List.nil_append, none, fraction?]
    rintro tail rfl
    exact noPoint '.' rfl rfl
  · rw [if_neg none]
    by_cases milliseconds : nanoseconds % 1000000 = 0
    · have whole : nanoseconds / 1000000 * 10 ^ (9 - 3) = nanoseconds := by omega
      rw [if_pos milliseconds, fraction?_padded (by decide) (by decide) (by omega) stops, whole]
    · rw [if_neg milliseconds]
      by_cases microseconds : nanoseconds % 1000 = 0
      · have whole : nanoseconds / 1000 * 10 ^ (9 - 6) = nanoseconds := by omega
        rw [if_pos microseconds, fraction?_padded (by decide) (by decide) (by omega) stops, whole]
      · rw [if_neg microseconds, fraction?_padded (by decide) (by decide) (by omega) stops,
          Nat.sub_self, Nat.pow_zero, Nat.mul_one]

/-- A separator in its place is passed. -/
theorem separator?_mark {mark : Char} (visible : Text.isBlank mark = false) (rest : List Char) :
    separator? mark (mark :: rest) = some rest := by
  have trimmed : Text.trimStart (mark :: rest) = mark :: rest := by
    refine List.dropWhile_cons_of_neg ?_
    rw [visible]
    exact Bool.false_ne_true
  rw [separator?, trimmed]
  exact if_pos rfl

/-- No digit follows the seconds: a fraction begins with its point, and its absence leaves the
letter of the offset. -/
theorem stops_writeFraction (nanoseconds : Nat) :
    Stops (writeFraction nanoseconds ++ ['Z']) := by
  unfold writeFraction
  split
  · exact stops_cons _ rfl _
  · split
    · exact stops_cons _ rfl _
    · split
      · exact stops_cons _ rfl _
      · exact stops_cons _ rfl _

/-- Written fields read back. -/
theorem fields?_written (year : Int) {month day hour minute second nanoseconds : Nat}
    (monthSmall : month < 100) (daySmall : day < 100) (hourSmall : hour < 100)
    (minuteSmall : minute < 100) (secondSmall : second < 100)
    (fractionSmall : nanoseconds < 1000000000) :
    fields? (writeYear year ++ '-' :: (padded 2 month ++ '-' :: (padded 2 day ++
        'T' :: (padded 2 hour ++ ':' :: (padded 2 minute ++ ':' :: (padded 2 second ++
          (writeFraction nanoseconds ++ ['Z']))))))) =
      some ⟨⟨year, month, day⟩, hour, minute, second, nanoseconds, 0⟩ := by
  have dash : ∀ rest, separator? '-' ('-' :: rest) = some rest :=
    fun rest => separator?_mark (by decide) rest
  have colon : ∀ rest, separator? ':' (':' :: rest) = some rest :=
    fun rest => separator?_mark (by decide) rest
  have atDash : ∀ rest, Stops ('-' :: rest) := fun rest => stops_cons _ rfl rest
  have atColon : ∀ rest, Stops (':' :: rest) := fun rest => stops_cons _ rfl rest
  have atLetter : ∀ rest, Stops ('T' :: rest) := fun rest => stops_cons _ rfl rest
  have fraction : fraction? (writeFraction nanoseconds ++ ['Z']) = some (nanoseconds, ['Z']) := by
    refine fraction?_writeFraction fractionSmall (stops_cons _ rfl _) ?_
    intro first begins
    obtain rfl : 'Z' = first := by simpa using begins
    decide
  have zone : offset? (Text.trimStart ['Z']) = some (0, []) := rfl
  refine Option.bind_eq_some_iff.mpr ⟨_, year?_writeYear year (atDash _), ?_⟩
  refine Option.bind_eq_some_iff.mpr ⟨_, dash _, ?_⟩
  refine Option.bind_eq_some_iff.mpr ⟨_, number?_padded monthSmall (atDash _), ?_⟩
  refine Option.bind_eq_some_iff.mpr ⟨_, dash _, ?_⟩
  refine Option.bind_eq_some_iff.mpr ⟨_, number?_padded daySmall (atLetter _), ?_⟩
  refine Option.bind_eq_some_iff.mpr ⟨_, rfl, ?_⟩
  refine Option.bind_eq_some_iff.mpr ⟨_, number?_padded hourSmall (atColon _), ?_⟩
  refine Option.bind_eq_some_iff.mpr ⟨_, colon _, ?_⟩
  refine Option.bind_eq_some_iff.mpr ⟨_, number?_padded minuteSmall (atColon _), ?_⟩
  refine Option.bind_eq_some_iff.mpr ⟨_, colon _, ?_⟩
  refine Option.bind_eq_some_iff.mpr
    ⟨_, number?_padded secondSmall (stops_writeFraction nanoseconds), ?_⟩
  refine Option.bind_eq_some_iff.mpr ⟨_, fraction, ?_⟩
  exact Option.bind_eq_some_iff.mpr ⟨_, zone, rfl⟩

/-- The second of a day is one of the day. -/
theorem secondOfDayAt_lt (instant : Instant) : instant.secondOfDayAt 0 < 86400 := by
  unfold Instant.secondOfDayAt
  omega

/-- The number of a day of a month has two digits at most. -/
theorem day_dateOf_lt (day : Int) : (Calendar.dateOf day).day < 100 := by
  have date := Calendar.isDate_dateOf day
  have month : ∀ year month, Calendar.monthLength year month ≤ 31 := by
    intro year month
    unfold Calendar.monthLength
    split
    · split <;> decide
    all_goals decide
  have bound := month (Calendar.dateOf day).year (Calendar.dateOf day).month
  simp only [Calendar.isDate, Bool.and_eq_true, decide_eq_true_eq] at date
  omega

/-- The fields that a time is written with, whose date is that of its day. -/
def fieldsOf (instant : Instant) : Fields where
  date := Calendar.dateOf (instant.dayAt 0)
  hour := instant.secondOfDayAt 0 / 3600
  minute := instant.secondOfDayAt 0 / 60 % 60
  second := instant.secondOfDayAt 0 % 60 + instant.nanoseconds / 1000000000
  nanoseconds := instant.nanoseconds % 1000000000
  offset := 0

/-- The fields of a time that a clock can show name that time. -/
theorem reading?_fieldsOf {instant : Instant} (time : instant.IsTime) :
    (fieldsOf instant).reading? = some instant.universal := by
  obtain ⟨first, last, small, leap⟩ := time
  have inside := secondOfDayAt_lt instant
  have seconds : instant.dayAt 0 * 86400 + instant.secondOfDayAt 0 = instant.seconds := by
    simp only [Instant.dayAt, Instant.secondOfDayAt]
    omega
  have whole : instant.dayAt 0 * 86400 + (instant.secondOfDayAt 0 / 3600 : Nat) * 3600 +
      (instant.secondOfDayAt 0 / 60 % 60 : Nat) * 60 +
      (min (instant.secondOfDayAt 0 % 60 + instant.nanoseconds / 1000000000) 59 : Nat) - 0 =
        instant.seconds := by omega
  have day : instant.seconds / 86400 = instant.dayAt 0 := by
    simp only [Instant.dayAt, Int.add_zero]
  have nanoseconds : (instant.nanoseconds % 1000000000 +
      if instant.secondOfDayAt 0 % 60 + instant.nanoseconds / 1000000000 = 60 then 1000000000
        else 0) = instant.nanoseconds := by
    split <;> omega
  have hours : instant.secondOfDayAt 0 / 3600 < 24 := by omega
  have minutes : instant.secondOfDayAt 0 / 60 % 60 < 60 := by omega
  have sixty : instant.secondOfDayAt 0 % 60 + instant.nanoseconds / 1000000000 ≤ 60 := by omega
  simp only [Fields.reading?, fieldsOf, Calendar.dayOf_dateOf, whole, day]
  simp only [Calendar.isDate_dateOf, first, last, hours, minutes, sixty, Int.natAbs_zero,
    Nat.reduceLT, decide_true, Bool.and_true, if_true]
  exact congrArg (fun ticks => some (Instant.mk instant.seconds ticks).universal) nanoseconds

/-- A time that a clock can show reads back. -/
theorem parse?_write {instant : Instant} (time : instant.IsTime) :
    parse? (write instant) = some instant := by
  have inside := secondOfDayAt_lt instant
  have civil := Calendar.month_dateOf (instant.dayAt 0)
  have small := time.nanoseconds
  have read : fields? (writeWith writeFraction instant) = some (fieldsOf instant) := by
    simp only [writeWith, List.append_assoc, List.cons_append]
    exact fields?_written _ (by omega) (day_dateOf_lt _) (by omega) (by omega) (by omega) (by omega)
  rw [parse?, parseReading?, write, String.toList_ofList, read, Option.bind_some,
    reading?_fieldsOf time]
  rfl

/-- A fraction of a second is less than one. -/
theorem fraction?_lt {text rest : List Char} {nanoseconds : Nat}
    (read : fraction? text = some (nanoseconds, rest)) : nanoseconds < 1000000000 := by
  unfold fraction? at read
  split at read
  · rename_i tail
    dsimp only at read
    split at read
    · cases read
    · obtain ⟨rfl, _⟩ := Prod.mk.inj (Option.some.inj read)
      have most : ((tail.takeWhile isDigit).take 9).length ≤ 9 := List.length_take_le 9 _
      have bound := numeral_lt ((tail.takeWhile isDigit).take 9)
      generalize (tail.takeWhile isDigit).take 9 = run at most bound
      have power : 10 ^ run.length * 10 ^ (9 - run.length) = 1000000000 := by
        rw [← Nat.pow_add, Nat.add_sub_cancel' most]
      rw [← power]
      exact Nat.mul_lt_mul_of_pos_right bound (Nat.pow_pos (by decide))
  · obtain ⟨rfl, _⟩ := Prod.mk.inj (Option.some.inj read)
    decide

/-- An offset is made of whole minutes. -/
theorem offset?_minutes {text rest : List Char} {offset : Int}
    (read : offset? text = some (offset, rest)) : offset % 60 = 0 := by
  have signed : ∀ (sign : Int) (text : List Char),
      ((twoDigits? text).bind fun hours =>
        (twoDigits? (hours.2.dropWhile fun character =>
          character == ':' || Text.isBlank character)).bind fun minutes =>
            if minutes.1 < 60 then some (sign * (hours.1 * 3600 + minutes.1 * 60 : Nat), minutes.2)
            else none) = some (offset, rest) → offset % 60 = 0 := by
    intro sign text read
    obtain ⟨⟨hours, afterHours⟩, _, read⟩ := Option.bind_eq_some_iff.mp read
    obtain ⟨⟨minutes, afterMinutes⟩, _, read⟩ := Option.bind_eq_some_iff.mp read
    dsimp only at read
    split at read
    · obtain ⟨rfl, _⟩ := Prod.mk.inj (Option.some.inj read)
      have whole : ((hours * 3600 + minutes * 60 : Nat) : Int) = 60 * (hours * 60 + minutes) := by
        omega
      rw [whole, ← Int.mul_assoc, Int.mul_comm sign, Int.mul_assoc]
      exact Int.mul_emod_right 60 _
    · cases read
  unfold offset? at read
  dsimp only at read
  split at read
  · obtain ⟨rfl, _⟩ := Prod.mk.inj (Option.some.inj read)
    rfl
  · obtain ⟨rfl, _⟩ := Prod.mk.inj (Option.some.inj read)
    rfl
  · exact signed 1 _ read
  · exact signed (-1) _ read
  · exact signed (-1) _ read
  · split at read
    · obtain ⟨rfl, _⟩ := Prod.mk.inj (Option.some.inj read)
      rfl
    · cases read
  · cases read

/-- Fields that read at all hold a fraction of less than a second, and an offset of whole
minutes. -/
theorem fields?_bounds {text : List Char} {fields : Fields} (read : fields? text = some fields) :
    fields.nanoseconds < 1000000000 ∧ fields.offset % 60 = 0 := by
  unfold fields? at read
  obtain ⟨⟨year, text⟩, _, read⟩ := Option.bind_eq_some_iff.mp read
  obtain ⟨text, _, read⟩ := Option.bind_eq_some_iff.mp read
  obtain ⟨⟨month, text⟩, _, read⟩ := Option.bind_eq_some_iff.mp read
  obtain ⟨text, _, read⟩ := Option.bind_eq_some_iff.mp read
  obtain ⟨⟨day, text⟩, _, read⟩ := Option.bind_eq_some_iff.mp read
  dsimp only at read
  split at read
  case h_4 => cases read
  -- the letter between date and time makes no difference to what follows it
  all_goals
    obtain ⟨text, _, read⟩ := Option.bind_eq_some_iff.mp read
    obtain ⟨⟨hour, text⟩, _, read⟩ := Option.bind_eq_some_iff.mp read
    obtain ⟨text, _, read⟩ := Option.bind_eq_some_iff.mp read
    obtain ⟨⟨minute, text⟩, _, read⟩ := Option.bind_eq_some_iff.mp read
    obtain ⟨text, _, read⟩ := Option.bind_eq_some_iff.mp read
    obtain ⟨⟨second, text⟩, _, read⟩ := Option.bind_eq_some_iff.mp read
    obtain ⟨⟨nanoseconds, text⟩, fraction, read⟩ := Option.bind_eq_some_iff.mp read
    obtain ⟨⟨offset, text⟩, zone, read⟩ := Option.bind_eq_some_iff.mp read
    dsimp only at read
    split at read
    · obtain rfl := Option.some.inj read
      exact ⟨fraction?_lt fraction, offset?_minutes zone⟩
    · cases read

/-- What reads as a time is a time that a clock can show. -/
theorem isTime_of_parse? {text : String} {instant : Instant} (read : parse? text = some instant) :
    instant.IsTime := by
  obtain ⟨reading, parsed, rfl⟩ := Option.map_eq_some_iff.mp read
  obtain ⟨fields, split, found⟩ := Option.bind_eq_some_iff.mp parsed
  obtain ⟨fraction, zone⟩ := fields?_bounds split
  unfold Fields.reading? at found
  dsimp only at found
  split at found
  · rename_i valid
    simp only [Bool.and_eq_true, decide_eq_true_eq] at valid
    obtain ⟨⟨⟨⟨⟨⟨_, _⟩, _⟩, sixty⟩, _⟩, _⟩, first, last⟩ := valid
    obtain rfl := Option.some.inj found
    constructor
    case first => simpa [Instant.dayAt] using first
    case last => simpa [Instant.dayAt] using last
    case nanoseconds =>
      dsimp only
      split <;> omega
    case leap =>
      intro leap
      dsimp only at leap ⊢
      split at leap
      · rename_i sixtieth
        rw [sixtieth]
        omega
      · omega
  · cases found

end Timestamp
end CampusRules
