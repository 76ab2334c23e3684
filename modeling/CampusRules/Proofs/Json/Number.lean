import CampusRules.Json.Lexeme
import CampusRules.Proofs.Number.Shortest

/-!
# Numbers read back

The text of a number, in front of anything that cannot belong to a number, is split off as one
lexeme, and that lexeme has the number as its value: an integer comes back as that integer, and
a float as that float, in whichever of its forms it was written.
-/

namespace CampusRules

/-- A text that does not go on with what could belong to a number. -/
def Ends (text : List Char) : Prop :=
  ∀ first ∈ text.head?, isDigit first = false ∧ first ≠ '.' ∧ first ≠ 'e' ∧ first ≠ 'E'

/-- A number that ends takes no more digits. -/
theorem Ends.stops {text : List Char} (ends : Ends text) : Stops text :=
  fun first begins => (ends first begins).1

namespace Json.Lexeme

/-- Digits that do not begin with zero are split off as a whole part. -/
theorem wholeDigits?_of_leading {whole rest : List Char}
    (all : ∀ digit ∈ whole, isDigit digit = true)
    (leading : ∃ first more, whole = first :: more ∧ first ≠ '0') (stops : Stops rest) :
    wholeDigits? (whole ++ rest) = some (whole, rest) := by
  obtain ⟨first, more, rfl, nonzero⟩ := leading
  unfold wholeDigits?
  rw [takeWhile_digits all stops, dropWhile_digits all stops]
  split
  · rename_i none
    cases none
  · rename_i zero
    exact absurd (List.cons.inj zero).1 nonzero
  · rename_i zero
    exact absurd (List.cons.inj zero).1 nonzero
  · rfl

/-- A zero by itself is a row of digits. -/
theorem isDigit_zero : ∀ digit ∈ ['0'], isDigit digit = true :=
  List.forall_mem_singleton.mpr rfl

/-- A zero by itself is split off as a whole part. -/
theorem wholeDigits?_zero {rest : List Char} (stops : Stops rest) :
    wholeDigits? ('0' :: rest) = some (['0'], rest) := by
  have taken : ('0' :: rest).takeWhile isDigit = ['0'] := takeWhile_digits isDigit_zero stops
  have left : ('0' :: rest).dropWhile isDigit = rest := dropWhile_digits isDigit_zero stops
  simp [wholeDigits?, taken, left]

/-- Digits behind a point are split off as a fraction. -/
theorem fractionDigits?_point {digits rest : List Char}
    (all : ∀ digit ∈ digits, isDigit digit = true) (some' : digits ≠ []) (stops : Stops rest) :
    fractionDigits? ('.' :: digits ++ rest) = some (digits, rest) := by
  simp [fractionDigits?, takeWhile_digits all stops, dropWhile_digits all stops, some']

/-- Without a point there is no fraction. -/
theorem fractionDigits?_none {rest : List Char} (other : ∀ first ∈ rest.head?, first ≠ '.') :
    fractionDigits? rest = some ([], rest) := by
  unfold fractionDigits?
  split
  · rename_i tail
    exact absurd rfl (other '.' rfl)
  · rfl

/-- Without its letter there is no exponent. -/
theorem exponent?_none {rest : List Char} (ends : Ends rest) :
    exponent? rest = some (none, rest) := by
  unfold exponent?
  split
  · rename_i tail
    exact absurd rfl (ends 'e' rfl).2.2.1
  · rename_i tail
    exact absurd rfl (ends 'E' rfl).2.2.2
  · rfl

/-- An exponent with its sign is split off. -/
theorem exponent?_signed (exponent : Int) {rest : List Char} (stops : Stops rest) :
    exponent? ('e' :: (if exponent < 0 then '-' else '+') ::
      (decimalDigits exponent.natAbs ++ rest)) = some (some exponent, rest) := by
  have all : ∀ digit ∈ decimalDigits exponent.natAbs, isDigit digit = true :=
    fun _ member => isDigit_decimalDigits member
  have taken := takeWhile_digits all stops
  have left := dropWhile_digits all stops
  have digits := decimalDigits_ne_nil exponent.natAbs
  by_cases negative : exponent < 0
  · have value : -((exponent.natAbs : Nat) : Int) = exponent := by omega
    generalize exponent.natAbs = magnitude at taken left digits value ⊢
    simp [exponent?, exponentDigits?, Decimal.splitSign, negative, taken, left, digits, value]
  · have value : ((exponent.natAbs : Nat) : Int) = exponent := by omega
    generalize exponent.natAbs = magnitude at taken left digits value ⊢
    simp [exponent?, exponentDigits?, Decimal.splitSign, negative, taken, left, digits, value]

/-- A number is split off part by part. -/
theorem number?_of_parts {text whole afterWhole fraction afterFraction rest : List Char}
    {exponent : Option Int} (negative : Bool) (first : wholeDigits? text = some (whole, afterWhole))
    (second : fractionDigits? afterWhole = some (fraction, afterFraction))
    (third : exponent? afterFraction = some (exponent, rest)) :
    number? negative text =
      some (.number (numberValue
        ⟨negative, numeral (whole ++ fraction), exponent.getD 0 - fraction.length⟩
        (fraction.isEmpty && exponent.isNone)), rest) := by
  simp [number?, first, second, third]

/-- The digits of a natural number are split off as a whole part. -/
theorem wholeDigits?_decimalDigits (number : Nat) {rest : List Char} (stops : Stops rest) :
    wholeDigits? (decimalDigits number ++ rest) = some (decimalDigits number, rest) := by
  rcases Nat.eq_zero_or_pos number with rfl | positive
  · exact wholeDigits?_zero stops
  · exact wholeDigits?_of_leading (fun _ member => isDigit_decimalDigits member)
      (decimalDigits_head positive) stops

/-- A whole literal of a magnitude that fits, with the sign of an integer, has that integer as
its value. -/
theorem numberValue_integer (value : Int) (fits : Number.Fits value) (exponent : Int) :
    numberValue ⟨decide (value < 0), value.natAbs, exponent⟩ true =
      some (.integer value fits) := by
  have same :
      (if decide (value < 0) = true then -(value.natAbs : Int) else value.natAbs) = value := by
    by_cases negative : value < 0
    · simp only [negative, decide_true, if_true]
      omega
    · simp only [negative, decide_false, Bool.false_eq_true, if_false]
      omega
  have signed : ¬(decide (value < 0) = true ∧ value.natAbs = 0) := by
    rw [decide_eq_true_eq]
    omega
  unfold numberValue
  dsimp only
  rw [dif_pos ⟨rfl, same.symm ▸ fits, signed⟩]
  simp only [same]

/-- The digits of an integer that fits read as that integer. -/
theorem number?_integer (value : Int) (fits : Number.Fits value) {rest : List Char}
    (ends : Ends rest) :
    number? (decide (value < 0)) (decimalDigits value.natAbs ++ rest) =
      some (.number (some (.integer value fits)), rest) := by
  have point : ∀ first ∈ rest.head?, first ≠ '.' := fun first begins => (ends first begins).2.1
  rw [number?_of_parts _ (wholeDigits?_decimalDigits _ ends.stops) (fractionDigits?_none point)
    (exponent?_none ends), List.append_nil, numeral_decimalDigits]
  exact congrArg (fun value => some (Lexeme.number value, rest)) (numberValue_integer value fits _)

/-- A literal that is read as a decimal with a fraction or an exponent, and that amounts to a
magnitude. -/
def ReadsAs (negative : Bool) (magnitude : Nat) (text rest : List Char) : Prop :=
  ∃ significand exponent, Binary64.Amounts significand exponent magnitude ∧
    number? negative (text ++ rest) =
      some (.number (numberValue ⟨negative, significand, exponent⟩ false), rest)

/-- A literal with digits on both sides of the point, and nothing else, reads as what the
digits amount to. -/
theorem readsAs_point (whole : List Char) {fraction rest : List Char} (exponent : Int)
    {magnitude : Nat}
    (begun : ∀ {tail}, Stops tail → wholeDigits? (whole ++ tail) = some (whole, tail))
    (all : ∀ digit ∈ fraction, isDigit digit = true) (some' : fraction ≠ [])
    (amounts : Binary64.Amounts (numeral (whole ++ fraction)) exponent magnitude)
    (scaled : exponent = -(fraction.length : Int)) (ends : Ends rest) (negative : Bool) :
    ReadsAs negative magnitude (whole ++ '.' :: fraction) rest := by
  have first := begun (stops_cons '.' rfl (fraction ++ rest))
  have second := fractionDigits?_point all some' ends.stops
  refine ⟨_, _, amounts, ?_⟩
  rw [List.append_assoc, List.cons_append, number?_of_parts _ first second (exponent?_none ends)]
  cases fraction with
  | nil => exact absurd rfl some'
  | cons _ _ => simp [scaled]

/-- Digits in front of the point read as what they amount to. -/
theorem readsAs_whole {digits rest : List Char} {exponent : Int} {magnitude : Nat}
    (denotes : Binary64.Denotes digits exponent magnitude) (large : 0 ≤ exponent) (ends : Ends rest)
    (negative : Bool) :
    ReadsAs negative magnitude
      (digits ++ List.replicate exponent.toNat '0' ++ ['.', '0']) rest := by
  obtain ⟨all, ⟨first, more, rfl, nonzero⟩, amounts⟩ := denotes
  have digit : ∀ digit ∈ first :: more ++ List.replicate exponent.toNat '0',
      isDigit digit = true := by
    intro digit member
    rcases List.mem_append.mp member with member | member
    · exact all digit member
    · rw [List.eq_of_mem_replicate member]
      rfl
  have shifted := amounts.zeros (exponent.toNat + 1) (by omega)
  apply readsAs_point _ (-1) (wholeDigits?_of_leading digit ⟨first, _, rfl, nonzero⟩)
    isDigit_zero (by decide) ?_ rfl ends
  have value : numeral (first :: more ++ List.replicate exponent.toNat '0' ++ ['0']) =
      numeral (first :: more) * 10 ^ (exponent.toNat + 1) := by
    rw [numeral_append, numeral_append, numeral_zeros, List.length_replicate, Nat.pow_succ]
    simp [numeral, digitValue?, Nat.mul_assoc]
  have scaled : exponent - ((exponent.toNat + 1 : Nat) : Int) = -1 := by omega
  rw [value, ← scaled]
  exact shifted

/-- Digits on both sides of the point read as what they amount to. -/
theorem readsAs_split {digits rest : List Char} {exponent : Int} {magnitude : Nat}
    (denotes : Binary64.Denotes digits exponent magnitude) (small : exponent < 0)
    (whole : 0 < (digits.length : Int) + exponent) (ends : Ends rest) (negative : Bool) :
    ReadsAs negative magnitude
      (digits.take ((digits.length : Int) + exponent).toNat ++
        '.' :: digits.drop ((digits.length : Int) + exponent).toNat) rest := by
  obtain ⟨all, ⟨first, more, rfl, nonzero⟩, amounts⟩ := denotes
  obtain ⟨kept, same⟩ : ∃ kept, (((first :: more).length : Int) + exponent).toNat = kept + 1 :=
    ⟨(((first :: more).length : Int) + exponent).toNat - 1, by omega⟩
  have left : ((first :: more).drop (kept + 1)).length = (-exponent).toNat := by
    rw [List.length_drop]
    omega
  rw [same]
  apply readsAs_point _ exponent ?_ ?_ ?_ ?_ ?_ ends
  · intro tail stops
    exact wholeDigits?_of_leading (fun digit member => all digit (List.mem_of_mem_take member))
      ⟨first, more.take kept, rfl, nonzero⟩ stops
  · exact fun digit member => all digit (List.mem_of_mem_drop member)
  · exact List.length_pos_iff.mp (by omega)
  · rw [List.take_append_drop]
    exact amounts
  · omega

/-- Digits behind the point read as what they amount to. -/
theorem readsAs_fraction {digits rest : List Char} {exponent : Int} {magnitude : Nat}
    (denotes : Binary64.Denotes digits exponent magnitude)
    (none : (digits.length : Int) + exponent ≤ 0) (ends : Ends rest) (negative : Bool) :
    ReadsAs negative magnitude
      ('0' :: '.' :: List.replicate (-((digits.length : Int) + exponent)).toNat '0' ++ digits)
      rest := by
  obtain ⟨all, ⟨first, more, rfl, _⟩, amounts⟩ := denotes
  have digit : ∀ digit ∈
      List.replicate (-(((first :: more).length : Int) + exponent)).toNat '0' ++ first :: more,
      isDigit digit = true := by
    intro digit member
    rcases List.mem_append.mp member with member | member
    · rw [List.eq_of_mem_replicate member]
      rfl
    · exact all digit member
  refine readsAs_point ['0'] exponent wholeDigits?_zero digit (by simp)
    ?_ ?_ ends negative
  · have value : numeral (['0'] ++ (List.replicate
        (-(((first :: more).length : Int) + exponent)).toNat '0' ++ first :: more)) =
          numeral (first :: more) := by
      rw [numeral_append, numeral_append, numeral_zeros]
      simp [numeral, digitValue?]
    rw [value]
    exact amounts
  · rw [List.length_append, List.length_replicate]
    omega

/-- Digits in exponent form read as what they amount to. -/
theorem readsAs_scientific {digits rest : List Char} {exponent : Int} {magnitude : Nat}
    (denotes : Binary64.Denotes digits exponent magnitude) (ends : Ends rest) (negative : Bool) :
    ReadsAs negative magnitude (Layout.scientific digits (exponent + digits.length - 1)) rest := by
  obtain ⟨all, ⟨first, more, rfl, nonzero⟩, amounts⟩ := denotes
  generalize scale : exponent + (first :: more).length - 1 = leading
  have third := exponent?_signed leading ends.stops
  have alone : ∀ digit ∈ [first], isDigit digit = true := by
    simpa using all first List.mem_cons_self
  refine ⟨_, _, amounts, ?_⟩
  cases more with
  | nil =>
    have begun := wholeDigits?_of_leading alone ⟨first, [], rfl, nonzero⟩
      (stops_cons 'e' rfl ((if leading < 0 then '-' else '+') ::
        (decimalDigits leading.natAbs ++ rest)))
    have unbroken : fractionDigits? ('e' :: (if leading < 0 then '-' else '+') ::
        (decimalDigits leading.natAbs ++ rest)) = some ([], _) := fractionDigits?_none (by simp)
    have read := number?_of_parts negative begun unbroken third
    have same : exponent = leading := by simpa using scale
    simpa [Layout.scientific, same] using read
  | cons second others =>
    have begun := wholeDigits?_of_leading alone ⟨first, [], rfl, nonzero⟩
      (stops_cons '.' rfl (second :: others ++ 'e' ::
        (if leading < 0 then '-' else '+') :: (decimalDigits leading.natAbs ++ rest)))
    have behind : ∀ digit ∈ second :: others, isDigit digit = true :=
      fun digit member => all digit (List.mem_cons_of_mem _ member)
    have fraction := fractionDigits?_point behind (by simp)
      (stops_cons 'e' rfl ((if leading < 0 then '-' else '+') ::
        (decimalDigits leading.natAbs ++ rest)))
    have read := number?_of_parts negative begun fraction third
    have same : leading - ((second :: others).length : Int) = exponent := by
      rw [← scale]
      simp only [List.length_cons]
      omega
    rw [Option.getD_some, same] at read
    simpa [Layout.scientific] using read

/-- A literal that reads as a magnitude which reads back as a number has that number as its
value. -/
theorem ReadsAs.number? {number : Binary64} {magnitude : Nat} {text rest : List Char}
    (reads : ReadsAs number.negative magnitude text rest)
    (readsBack : number.readsBack magnitude = true) (positive : 0 < magnitude) :
    number? number.negative (text ++ rest) = some (.number (some (.float number)), rest) := by
  obtain ⟨significand, exponent, amounts, read⟩ := reads
  have nearest := Binary64.toQuantity_of_readsBack readsBack positive amounts number.negative
  rw [read, numberValue, dif_neg (fun fitting => Bool.false_ne_true fitting.1), nearest]

/-- The text of a float without its sign. -/
def floatBody (number : Binary64) : List Char :=
  if number.isZero then ['0', '.', '0']
  else
    let (digits, exponent) := number.shortestDigits .even
    let leading := exponent + digits.length - 1
    if -5 ≤ leading ∧ leading ≤ 15 then Layout.json.positional digits exponent
    else Layout.scientific digits leading

/-- The text of a float is its sign and the rest. -/
theorem text_float (number : Binary64) :
    (Number.float number).text =
      (if number.negative then ['-'] else []) ++ floatBody number := by
  change Layout.json.write number = _
  unfold Layout.write floatBody
  by_cases zero : number.isZero = true
  · simp [zero, Layout.json]
  · simp [zero, Layout.json]

/-- The positional form of digits reads as what they amount to. -/
theorem readsAs_positional {digits rest : List Char} {exponent : Int} {magnitude : Nat}
    (denotes : Binary64.Denotes digits exponent magnitude) (ends : Ends rest) (negative : Bool) :
    ReadsAs negative magnitude (Layout.json.positional digits exponent) rest := by
  unfold Layout.positional
  split
  · rename_i large
    exact readsAs_whole denotes large ends negative
  · rename_i small
    dsimp only
    split
    · rename_i whole
      exact readsAs_split denotes (Int.not_le.mp small) whole ends negative
    · rename_i none
      exact readsAs_fraction denotes (Int.not_lt.mp none) ends negative

/-- The text of a float without its sign reads as that float. -/
theorem number?_floatBody (number : Binary64) {rest : List Char} (ends : Ends rest) :
    number? number.negative (floatBody number ++ rest) =
      some (.number (some (.float number)), rest) := by
  unfold floatBody
  cases zero : number.isZero with
  | true =>
    have index : number.index.val = 0 := by simpa [Binary64.isZero] using zero
    have same : number = Binary64.signedZero number.negative := by
      obtain ⟨negative, index'⟩ := number
      exact congrArg (Binary64.mk negative) (Fin.ext index)
    have fraction := fractionDigits?_point isDigit_zero (by decide) ends.stops
    have read := number?_of_parts number.negative
      (wholeDigits?_zero (stops_cons '.' rfl ('0' :: rest))) fraction (exponent?_none ends)
    rw [if_pos rfl]
    refine read.trans ?_
    rw [numberValue, dif_neg (fun fitting => Bool.false_ne_true fitting.1)]
    have vanishes (exponent : Int) :
        (Decimal.mk number.negative (numeral (['0'] ++ ['0'])) exponent).toQuantity =
          .finite (Binary64.signedZero number.negative) := rfl
    rw [vanishes, ← same]
  | false =>
    have denotes := Binary64.denotes_shortestDigits .even zero
    have readsBack := Binary64.readsBack_shortestUnits .even number
    have positive := Binary64.shortestUnits_pos .even zero
    rw [if_neg Bool.false_ne_true]
    rcases shortest : number.shortestDigits .even with ⟨digits, exponent⟩
    rw [shortest] at denotes
    dsimp only
    split
    · exact (readsAs_positional denotes ends number.negative).number? readsBack positive
    · exact (readsAs_scientific denotes ends number.negative).number? readsBack positive

/-- A text that begins with a digit begins with a number. -/
theorem first?_of_digit {first : Char} (digit : isDigit first = true) (rest : List Char) :
    first? (first :: rest) = number? false (first :: rest) := by
  unfold first?
  split <;> first | rfl | (rename_i same; cases same; exact absurd digit (by decide))

/-- The text of a float without its sign begins with a digit. -/
theorem floatBody_head (number : Binary64) :
    ∃ first rest, floatBody number = first :: rest ∧ isDigit first = true := by
  unfold floatBody
  cases zero : number.isZero with
  | true => exact ⟨'0', ['.', '0'], rfl, rfl⟩
  | false =>
    obtain ⟨all, ⟨first, more, same, _⟩, _⟩ := Binary64.denotes_shortestDigits .even zero
    rcases shortest : number.shortestDigits .even with ⟨digits, exponent⟩
    rw [shortest] at all same
    dsimp only at all same
    subst same
    have digit := all first List.mem_cons_self
    rw [if_neg Bool.false_ne_true]
    dsimp only
    split
    · unfold Layout.positional
      split
      · exact ⟨first, _, rfl, digit⟩
      · dsimp only
        split
        · rename_i whole
          obtain ⟨kept, same⟩ :
              ∃ kept, (((first :: more).length : Int) + exponent).toNat = kept + 1 :=
            ⟨(((first :: more).length : Int) + exponent).toNat - 1, by omega⟩
          rw [same]
          exact ⟨first, _, rfl, digit⟩
        · exact ⟨'0', _, rfl, rfl⟩
    · cases more with
      | nil => exact ⟨first, _, rfl, digit⟩
      | cons _ _ => exact ⟨first, _, rfl, digit⟩

/-- The text of a number reads as that number. -/
theorem first?_number (number : Number) {rest : List Char} (ends : Ends rest) :
    first? (number.text ++ rest) = some (.number (some number), rest) := by
  cases number with
  | integer value fits =>
    have read := number?_integer value fits ends
    have all : ∀ digit ∈ decimalDigits value.natAbs, isDigit digit = true :=
      fun _ member => isDigit_decimalDigits member
    change first? (integerText value ++ rest) = _
    unfold integerText
    by_cases negative : value < 0
    · simp only [negative, decide_true, if_true] at read ⊢
      exact read
    · simp only [negative, decide_false, if_false] at read ⊢
      obtain ⟨first, more, same⟩ := List.exists_cons_of_ne_nil (decimalDigits_ne_nil value.natAbs)
      rw [same] at read all ⊢
      exact (first?_of_digit (all first List.mem_cons_self) _).trans read
  | float value =>
    have read := number?_floatBody value ends
    rw [text_float]
    cases sign : value.negative with
    | true =>
      rw [sign] at read
      exact read
    | false =>
      rw [sign] at read
      obtain ⟨first, more, same, digit⟩ := floatBody_head value
      rw [if_neg Bool.false_ne_true, List.nil_append]
      rw [same] at read ⊢
      exact (first?_of_digit digit _).trans read

end Json.Lexeme
end CampusRules
