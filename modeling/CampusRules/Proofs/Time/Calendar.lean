import CampusRules.Time.Calendar

/-!
# The calendar counts days and months in order

A year that begins in March starts on the day `yearStart`, counted from the first of
March of the year zero. Every day lies in exactly one such year, and in one of its
months, so the date of a day determines the day, and later days have no earlier months.

A cycle of four hundred years is four centuries, a century twenty-five spans of four
years. Every span but the last of a century ends with a leap day, and the last of the
last century does so as well.
-/

namespace CampusRules.Calendar

/-- The days from the first of March of the year zero to the first of March of a year. -/
def yearStart (year : Int) : Int := 365 * year + year / 4 - year / 100 + year / 400

/-- A day inside a cycle, taken apart into centuries, spans of four years, years and days.
Only a leap day is the day after the 364th. -/
structure Parts (day century span year rest : Int) : Prop where
  sum : 36524 * century + 1461 * span + 365 * year + rest = day
  centuries : 0 ≤ century ∧ century ≤ 3
  spans : 0 ≤ span ∧ span ≤ 24
  years : 0 ≤ year ∧ year ≤ 3
  first : 0 ≤ rest
  last : rest ≤ 364 ∨ (rest = 365 ∧ year = 3 ∧ (span < 24 ∨ century = 3))

/-- Every day inside a cycle can be taken apart. -/
theorem exists_parts {day : Int} (lower : 0 ≤ day) (upper : day < 146097) :
    ∃ century span year rest, Parts day century span year rest := by
  let century := min (day / 36524) 3
  let inCentury := day - 36524 * century
  let span := inCentury / 1461
  let inSpan := inCentury - 1461 * span
  let year := min (inSpan / 365) 3
  refine ⟨century, span, year, inSpan - 365 * year, ?_, ?_, ?_, ?_, ?_, ?_⟩
  all_goals
    simp only [century, inCentury, span, inSpan, year]
    omega

/-- The year that division finds is the year of the parts. The divisions count the leap days
that have gone by; each is off by one at most in the last days of a span or of the cycle. -/
theorem Parts.yearInCycle {day century span year rest : Int}
    (parts : Parts day century span year rest) :
    yearInCycle day = 100 * century + 4 * span + year := by
  obtain ⟨sum, centuries, spans, years, first, last⟩ := parts
  have spanned : day / 1460 = 25 * century + span ∧ 24 * century + span + 365 * year + rest < 1460 ∨
      day / 1460 = 25 * century + span + 1 ∧ year = 3 ∧ 365 ≤ 24 * century + span + rest := by
    omega
  have ended : day / 36524 = century ∧ day / 146096 = 0 ∨
      day / 36524 = century + 1 ∧ day / 146096 = 1 ∧ day = 146096 := by
    omega
  unfold Calendar.yearInCycle
  rcases spanned with ⟨counted, _⟩ | ⟨counted, _, _⟩
  · rcases ended with ⟨whole, none⟩ | ⟨whole, one, _⟩ <;> omega
  · rcases ended with ⟨whole, none⟩ | ⟨whole, one, _⟩ <;> omega

/-- A year of the parts starts where its centuries, spans and years do. -/
theorem Parts.yearStart {day century span year rest : Int}
    (parts : Parts day century span year rest) :
    yearStart (100 * century + 4 * span + year) = day - rest := by
  obtain ⟨sum, centuries, spans, years, _, _⟩ := parts
  unfold Calendar.yearStart
  omega

/-- The year after that of the parts starts behind the day. -/
theorem Parts.lt_yearStart {day century span year rest : Int}
    (parts : Parts day century span year rest) :
    day < Calendar.yearStart (100 * century + 4 * span + year + 1) := by
  obtain ⟨sum, centuries, spans, years, _, last⟩ := parts
  unfold Calendar.yearStart
  rcases last with ordinary | ⟨_, final, leap⟩
  · by_cases final : year = 3 ∧ span = 24 ∧ century = 3
    · omega
    · by_cases ending : year = 3 ∧ span = 24 <;> omega
  · rcases leap with inside | atEnd <;> omega

/-- Years start in order. -/
theorem yearStart_mono {first second : Int} (ordered : first ≤ second) :
    yearStart first ≤ yearStart second := by
  unfold yearStart
  omega

/-- A cycle later, a year starts as many days later as a cycle has. -/
theorem yearStart_cycle (cycle year : Int) :
    yearStart (400 * cycle + year) = 146097 * cycle + yearStart year := by
  unfold yearStart
  omega

/-- A year has 366 days when the next year, in which its February lies, is a leap year. -/
theorem yearStart_succ (year : Int) :
    yearStart (year + 1) = yearStart year + 365 + if isLeap (year + 1) then 1 else 0 := by
  unfold yearStart isLeap
  by_cases leap : (((year + 1) % 4 == 0) && ((year + 1) % 100 != 0 || (year + 1) % 400 == 0)) = true
  · simp only [leap, if_true]
    simp only [Bool.and_eq_true, Bool.or_eq_true, beq_iff_eq, bne_iff_ne] at leap
    omega
  · simp only [leap]
    simp only [Bool.and_eq_true, Bool.or_eq_true, beq_iff_eq, bne_iff_ne] at leap
    simp only [Bool.false_eq_true, if_false]
    omega

/-- The year of a day, years beginning in March. -/
def marchYear (day : Int) : Int := 400 * (cycleOf day).1 + yearInCycle (cycleOf day).2

/-- The day inside the year that begins in March. -/
def marchDay (day : Int) : Int := dayInYear (cycleOf day).2

/-- A day lies in its year, and not behind the end of it. -/
theorem marchDay_bounds (day : Int) :
    yearStart (marchYear day) + marchDay day = day + epoch ∧ 0 ≤ marchDay day ∧
      day + epoch < yearStart (marchYear day + 1) := by
  have inside : 0 ≤ (cycleOf day).2 ∧ (cycleOf day).2 < 146097 := by
    unfold cycleOf
    omega
  have whole : 146097 * (cycleOf day).1 + (cycleOf day).2 = day + epoch := by
    unfold cycleOf
    omega
  obtain ⟨century, span, year, rest, parts⟩ := exists_parts inside.1 inside.2
  have found := parts.yearInCycle
  have start := parts.yearStart
  have next := parts.lt_yearStart
  rw [← found] at next
  have counted : dayInYear (cycleOf day).2 = rest := by
    obtain ⟨sum, centuries, spans, years, _, _⟩ := parts
    unfold dayInYear
    simp only [found]
    omega
  refine ⟨?_, ?_, ?_⟩
  · rw [marchYear, yearStart_cycle, marchDay, counted, found, start]
    omega
  · rw [marchDay, counted]
    exact parts.first
  · rw [marchYear, Int.add_assoc, yearStart_cycle]
    omega

/-- A day of a year has a month of that year, and lies in it. -/
theorem monthInYear_bounds {day : Int} (lower : 0 ≤ day) (upper : day ≤ 365) :
    (0 ≤ monthInYear day ∧ monthInYear day ≤ 11) ∧ (153 * monthInYear day + 2) / 5 ≤ day ∧
      day < (153 * (monthInYear day + 1) + 2) / 5 := by
  unfold monthInYear
  omega

/-- The day inside its year is at most the 365th, counted from zero. -/
theorem marchDay_le (day : Int) : marchDay day ≤ 365 := by
  obtain ⟨sum, _, upper⟩ := marchDay_bounds day
  have length := yearStart_succ (marchYear day)
  split at length <;> omega

/-- The date of a day, by its year that begins in March: the last two months belong to the
civil year after. -/
theorem dateOf_eq (day : Int) :
    dateOf day =
      let month := monthInYear (marchDay day)
      ⟨marchYear day + (if month < 10 then 0 else 1),
        (if month < 10 then month + 3 else month - 9).toNat,
        (marchDay day - (153 * month + 2) / 5 + 1).toNat⟩ := by
  obtain ⟨_, lower, _⟩ := marchDay_bounds day
  have months := (monthInYear_bounds lower (marchDay_le day)).1
  unfold dateOf
  simp only [marchYear, marchDay] at months ⊢
  congr 1
  split <;> split <;> omega

/-- Months are counted from March of the year zero on, and two more. -/
theorem monthsAt_eq (day : Int) :
    monthsAt day = 12 * marchYear day + monthInYear (marchDay day) + 2 := by
  obtain ⟨_, lower, _⟩ := marchDay_bounds day
  have months := (monthInYear_bounds lower (marchDay_le day)).1
  unfold monthsAt
  rw [dateOf_eq]
  dsimp only
  split <;> omega

/-- Later days have no earlier years. -/
theorem marchYear_mono {first second : Int} (ordered : first ≤ second) :
    marchYear first ≤ marchYear second := by
  obtain ⟨sum, lower, _⟩ := marchDay_bounds first
  obtain ⟨_, _, upper⟩ := marchDay_bounds second
  apply Int.not_lt.mp
  intro later
  have reordered : yearStart (marchYear second + 1) ≤ yearStart (marchYear first) :=
    yearStart_mono (by omega)
  omega

/-- Later days have no earlier months. -/
theorem monthsAt_mono {first second : Int} (ordered : first ≤ second) :
    monthsAt first ≤ monthsAt second := by
  have years := marchYear_mono ordered
  obtain ⟨sum, lower, _⟩ := marchDay_bounds first
  obtain ⟨sumLater, lowerLater, _⟩ := marchDay_bounds second
  have months := (monthInYear_bounds lower (marchDay_le first)).1
  have monthsLater := (monthInYear_bounds lowerLater (marchDay_le second)).1
  rw [monthsAt_eq, monthsAt_eq]
  by_cases same : marchYear first = marchYear second
  · have days : marchDay first ≤ marchDay second := by
      rw [same] at sum
      omega
    have inOrder : monthInYear (marchDay first) ≤ monthInYear (marchDay second) := by
      unfold monthInYear
      omega
    omega
  · omega

/-- The day of the date of a day is that day. -/
theorem dayOf_dateOf (day : Int) : dayOf (dateOf day) = day := by
  obtain ⟨sum, lower, _⟩ := marchDay_bounds day
  obtain ⟨months, begun, _⟩ := monthInYear_bounds lower (marchDay_le day)
  have start : yearStart (marchYear day) = 365 * marchYear day + marchYear day / 4 -
      marchYear day / 100 + marchYear day / 400 := rfl
  rw [dateOf_eq]
  unfold dayOf
  dsimp only
  by_cases early : monthInYear (marchDay day) < 10
  · have civil : ¬ (monthInYear (marchDay day) + 3).toNat ≤ 2 := by omega
    simp only [early, civil, if_true, if_false]
    omega
  · have civil : (monthInYear (marchDay day) - 9).toNat ≤ 2 := by omega
    simp only [early, civil, if_true, if_false]
    omega

/-- Two days with one date are one day. -/
theorem dateOf_injective {first second : Int} (same : dateOf first = dateOf second) :
    first = second := by
  rw [← dayOf_dateOf first, same, dayOf_dateOf]

/-- The month of a date is one of twelve. -/
theorem month_dateOf (day : Int) : 1 ≤ (dateOf day).month ∧ (dateOf day).month ≤ 12 := by
  obtain ⟨_, lower, _⟩ := marchDay_bounds day
  have months := (monthInYear_bounds lower (marchDay_le day)).1
  rw [dateOf_eq]
  dsimp only
  split <;> omega

/-- The lengths of the months from March to January, and where in the year each of them lies. -/
theorem monthLength_march (year : Int) {month : Int} (lower : 0 ≤ month) (upper : month < 11) :
    (monthLength year (if month < 10 then month + 3 else month - 9).toNat : Int) =
      (153 * (month + 1) + 2) / 5 - (153 * month + 2) / 5 := by
  have cases : month = 0 ∨ month = 1 ∨ month = 2 ∨ month = 3 ∨ month = 4 ∨ month = 5 ∨
      month = 6 ∨ month = 7 ∨ month = 8 ∨ month = 9 ∨ month = 10 := by omega
  rcases cases with rfl | rfl | rfl | rfl | rfl | rfl | rfl | rfl | rfl | rfl | rfl
  all_goals rfl

/-- The date of a day names a date. February is the last month of its year, so its length is
bounded by that of the year. -/
theorem isDate_dateOf (day : Int) : isDate (dateOf day) = true := by
  obtain ⟨sum, lower, upper⟩ := marchDay_bounds day
  obtain ⟨months, begun, ended⟩ := monthInYear_bounds lower (marchDay_le day)
  have civil := month_dateOf day
  have inMonth : (dateOf day).day ≤ monthLength (dateOf day).year (dateOf day).month := by
    rw [dateOf_eq]
    dsimp only
    by_cases early : monthInYear (marchDay day) < 11
    · have length := monthLength_march
        (marchYear day + if monthInYear (marchDay day) < 10 then 0 else 1) months.1 early
      omega
    · have february : monthInYear (marchDay day) = 11 := by omega
      have yearLength := yearStart_succ (marchYear day)
      rw [february] at begun ⊢
      change _ ≤ if isLeap (marchYear day + 1) = true then 29 else 28
      split at yearLength
      · rename_i leap
        rw [if_pos leap]
        omega
      · rename_i ordinary
        rw [if_neg ordinary]
        omega
  have first : 1 ≤ (dateOf day).day := by
    rw [dateOf_eq]
    dsimp only
    omega
  simp [isDate, civil, first, inMonth]

/-- Two days are in one month when their dates have one year and one month. -/
theorem monthsAt_eq_iff (first second : Int) :
    monthsAt first = monthsAt second ↔
      (dateOf first).year = (dateOf second).year ∧
        (dateOf first).month = (dateOf second).month := by
  have early := month_dateOf first
  have late := month_dateOf second
  unfold monthsAt
  dsimp only
  omega

end CampusRules.Calendar
