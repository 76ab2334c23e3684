import CampusRules.Proofs.Number.Decimal

/-!
# Loose numerals

A numeral is read part by part: a sign, digits, a point with digits, an exponent. So parts that are
put together read as they should. And whatever reads as a numeral is made of digits, signs, points
and the letter of the exponent, and begins with a digit or a point behind its sign.
-/

namespace CampusRules.Decimal

/-- The digits behind a point, if there is one, and what is behind them. -/
def fractionOf : List Char → List Char × List Char
  | '.' :: rest => (rest.takeWhile isDigit, rest.dropWhile isDigit)
  | rest => ([], rest)

/-- The exponent at the end of a numeral; without one it is zero. -/
def exponentOf? : List Char → Option Int
  | [] => some 0
  | 'e' :: rest | 'E' :: rest => parseExponent? rest
  | _ => none

/-- What is made of an exponent is made of it in each of its forms. -/
theorem exponentOf?_bind {α : Type} (behind : List Char) (result : Int → Option α) :
    (exponentOf? behind).bind result =
      match behind with
      | [] => (some 0).bind result
      | 'e' :: rest => (parseExponent? rest).bind result
      | 'E' :: rest => (parseExponent? rest).bind result
      | _ => none := by
  unfold exponentOf?
  split <;> simp

/-- A numeral is read part by part. -/
theorem parse?_eq (text : List Char) :
    parse? text =
      let (negative, unsigned) := splitSign text
      let whole := unsigned.takeWhile isDigit
      let (fraction, behind) := fractionOf (unsigned.dropWhile isDigit)
      if whole = [] ∧ fraction = [] then none
      else (exponentOf? behind).bind fun exponent =>
        some ⟨negative, numeral (whole ++ fraction), exponent - fraction.length⟩ := by
  unfold parse?
  obtain ⟨negative, unsigned⟩ := splitSign text
  dsimp only
  generalize unsigned.takeWhile isDigit = whole
  generalize unsigned.dropWhile isDigit = afterWhole
  rw [exponentOf?_bind, fractionOf.eq_def]
  by_cases empty : whole = [] ∧ (fractionOf afterWhole).1 = []
  · rw [fractionOf.eq_def] at empty
    exact (if_pos empty).trans (if_pos empty).symm
  · rw [fractionOf.eq_def] at empty
    exact (if_neg empty).trans (if_neg empty).symm

/-! ## Parts put together -/

/-- A sign in front of a digit is split off. -/
theorem splitSign_signed (negative : Bool) {first : Char} {rest : List Char}
    (digit : isDigit first = true) :
    splitSign ((if negative then ['-'] else []) ++ first :: rest) = (negative, first :: rest) := by
  cases negative with
  | true => rfl
  | false =>
    change splitSign (first :: rest) = _
    unfold splitSign
    split
    · rename_i same
      rw [(List.cons.inj same).1] at digit
      cases digit
    · rename_i same
      rw [(List.cons.inj same).1] at digit
      cases digit
    · rfl

/-- Digits behind a point are split off as a fraction. -/
theorem fractionOf_point {digits rest : List Char} (all : ∀ digit ∈ digits, isDigit digit = true)
    (stops : Stops rest) : fractionOf ('.' :: digits ++ rest) = (digits, rest) := by
  rw [List.cons_append, fractionOf, takeWhile_digits all stops, dropWhile_digits all stops]

/-- Without a point there is no fraction. -/
theorem fractionOf_none {rest : List Char} (other : ∀ first ∈ rest.head?, first ≠ '.') :
    fractionOf rest = ([], rest) := by
  unfold fractionOf
  split
  · exact absurd rfl (other '.' rfl)
  · rfl

/-- An exponent with its sign is read as such. -/
theorem exponentOf?_signed (exponent : Int) :
    exponentOf? ('e' :: (if exponent < 0 then '-' else '+') :: decimalDigits exponent.natAbs) =
      some exponent := by
  have all : (decimalDigits exponent.natAbs).all isDigit = true :=
    List.all_eq_true.mpr fun _ member => isDigit_decimalDigits member
  have digits := decimalDigits_ne_nil exponent.natAbs
  have read := numeral_decimalDigits exponent.natAbs
  by_cases negative : exponent < 0
  · have value : -((exponent.natAbs : Nat) : Int) = exponent := by omega
    generalize exponent.natAbs = magnitude at all digits read value ⊢
    simp [exponentOf?, parseExponent?, splitSign, negative, all, digits, read, value]
  · have value : ((exponent.natAbs : Nat) : Int) = exponent := by omega
    generalize exponent.natAbs = magnitude at all digits read value ⊢
    simp [exponentOf?, parseExponent?, splitSign, negative, all, digits, read, value]

/-- Digits with what may follow them read as a numeral with a sign. -/
theorem parse?_of_parts (negative : Bool) {whole afterWhole fraction behind : List Char}
    {exponent : Int} (all : ∀ digit ∈ whole, isDigit digit = true) (some' : whole ≠ [])
    (stops : Stops afterWhole) (point : fractionOf afterWhole = (fraction, behind))
    (ends : exponentOf? behind = some exponent) :
    parse? ((if negative then ['-'] else []) ++ (whole ++ afterWhole)) =
      some ⟨negative, numeral (whole ++ fraction), exponent - fraction.length⟩ := by
  have sign : splitSign ((if negative then ['-'] else []) ++ (whole ++ afterWhole)) =
      (negative, whole ++ afterWhole) := by
    cases whole with
    | nil => exact absurd rfl some'
    | cons first rest => exact splitSign_signed negative (all first List.mem_cons_self)
  rw [parse?_eq, sign]
  dsimp only
  rw [takeWhile_digits all stops, dropWhile_digits all stops, point]
  dsimp only
  rw [if_neg (fun none => some' none.1), ends]
  rfl

/-- Digits with a sign and nothing else read as a whole numeral. -/
theorem parse?_digits (negative : Bool) {digits : List Char}
    (all : ∀ digit ∈ digits, isDigit digit = true) (some' : digits ≠ []) :
    parse? ((if negative then ['-'] else []) ++ digits) = some ⟨negative, numeral digits, 0⟩ := by
  have read := parse?_of_parts negative all some' (fun _ none => absurd none (by simp))
    (fractionOf_none (fun _ none => absurd none (by simp))) (rfl : exponentOf? [] = some 0)
  rw [List.append_nil] at read
  exact read

/-- The digits of a number with a sign read as that number. -/
theorem parse?_decimalDigits (negative : Bool) (number : Nat) :
    parse? ((if negative then ['-'] else []) ++ decimalDigits number) =
      some ⟨negative, number, 0⟩ := by
  have read := parse?_digits negative
    (fun digit (member : digit ∈ decimalDigits number) => isDigit_decimalDigits member)
    (decimalDigits_ne_nil number)
  rw [numeral_decimalDigits] at read
  exact read

/-- The nearest number of a whole decimal is found by one rounding. -/
theorem toQuantity_whole (negative : Bool) (number : Nat) :
    (Decimal.mk negative number 0).toQuantity = .ofNat negative number := by
  rcases Nat.eq_zero_or_pos number with rfl | positive
  · cases negative <;> rfl
  · unfold toQuantity
    dsimp only
    rw [if_neg positive.ne', if_neg (by decide), if_neg (by omega), if_pos (Int.le_refl 0),
      Int.toNat_zero, Nat.pow_eq, Nat.pow_zero, Nat.mul_one]
    rfl

/-! ## What a numeral consists of -/

/-- The characters that occur in numerals. -/
def isNumeric (character : Char) : Bool :=
  isDigit character || ['+', '-', '.', 'e', 'E'].contains character

/-- A sign is all that is in front of an unsigned numeral. -/
theorem splitSign_cases (text : List Char) :
    (splitSign text).2 = text ∨
      ∃ sign, (sign = '+' ∨ sign = '-') ∧ text = sign :: (splitSign text).2 := by
  unfold splitSign
  split
  · exact .inr ⟨'-', .inr rfl, rfl⟩
  · exact .inr ⟨'+', .inl rfl, rfl⟩
  · exact .inl rfl

/-- What reads as a numeral has an exponent at its end, or nothing, and begins with a digit or a
point. -/
theorem of_parse? {text : List Char} {decimal : Decimal} (parsed : parse? text = some decimal) :
    (∃ first rest, (splitSign text).2 = first :: rest ∧ (isDigit first = true ∨ first = '.')) ∧
      ∃ exponent,
        exponentOf? (fractionOf ((splitSign text).2.dropWhile isDigit)).2 = some exponent := by
  rw [parse?_eq] at parsed
  dsimp only at parsed
  generalize (splitSign text).2 = unsigned at parsed
  by_cases empty : unsigned.takeWhile isDigit = [] ∧
      (fractionOf (unsigned.dropWhile isDigit)).1 = []
  · rw [if_pos empty] at parsed
    cases parsed
  · rw [if_neg empty] at parsed
    obtain ⟨exponent, ends, _⟩ := Option.bind_eq_some_iff.mp parsed
    refine ⟨?_, exponent, ends⟩
    cases unsigned with
    | nil => exact absurd ⟨rfl, rfl⟩ empty
    | cons first rest =>
      refine ⟨first, rest, rfl, ?_⟩
      by_contra other
      rw [not_or, Bool.not_eq_true] at other
      obtain ⟨noDigit, noPoint⟩ := other
      have unpointed : fractionOf (first :: rest) = ([], first :: rest) :=
        fractionOf_none fun begins same => by
          obtain rfl : first = begins := by simpa using same
          exact noPoint
      apply empty
      rw [List.takeWhile_cons_of_neg (by simp [noDigit]),
        List.dropWhile_cons_of_neg (by simp [noDigit]), unpointed]
      exact ⟨rfl, rfl⟩

/-- A digit is numeric. -/
theorem isNumeric_of_isDigit {character : Char} (digit : isDigit character = true) :
    isNumeric character = true := by
  rw [isNumeric, digit, Bool.true_or]

/-- A text is numeric if it is so behind its sign. -/
theorem isNumeric_of_splitSign {text : List Char}
    (unsigned : ∀ character ∈ (splitSign text).2, isNumeric character = true) {character : Char}
    (member : character ∈ text) : isNumeric character = true := by
  rcases splitSign_cases text with same | ⟨sign, plusMinus, same⟩
  · exact unsigned character (same.symm ▸ member)
  · rw [same] at member
    rcases List.mem_cons.mp member with rfl | behind
    · rcases plusMinus with rfl | rfl <;> rfl
    · exact unsigned character behind

/-- Every character of an exponent is numeric. -/
theorem isNumeric_of_exponentOf? {behind : List Char} {exponent : Int}
    (ends : exponentOf? behind = some exponent) {character : Char} (member : character ∈ behind) :
    isNumeric character = true := by
  have digits {rest : List Char} (parsed : parseExponent? rest = some exponent) :
      ∀ character ∈ rest, isNumeric character = true := by
    unfold parseExponent? at parsed
    dsimp only at parsed
    split at parsed
    · rename_i row
      have all := List.all_eq_true.mp row.2
      exact fun _ => isNumeric_of_splitSign fun digit among => isNumeric_of_isDigit (all digit among)
    · cases parsed
  unfold exponentOf? at ends
  split at ends
  · cases member
  · rcases List.mem_cons.mp member with rfl | behind
    · rfl
    · exact digits ends character behind
  · rcases List.mem_cons.mp member with rfl | behind
    · rfl
    · exact digits ends character behind
  · cases ends

/-- A text is numeric if it is so behind its fraction. -/
theorem isNumeric_of_fractionOf {text : List Char}
    (behind : ∀ character ∈ (fractionOf text).2, isNumeric character = true) {character : Char}
    (member : character ∈ text) : isNumeric character = true := by
  unfold fractionOf at behind
  split at behind
  · rename_i rest
    rcases List.mem_cons.mp member with rfl | among
    · rfl
    · rw [← List.takeWhile_append_dropWhile (p := isDigit) (l := rest)] at among
      rcases List.mem_append.mp among with digit | further
      · exact isNumeric_of_isDigit (List.all_eq_true.mp List.all_takeWhile _ digit)
      · exact behind character further
  · exact behind character member

/-- Every character of what reads as a numeral is numeric. -/
theorem isNumeric_of_parse? {text : List Char} {decimal : Decimal}
    (parsed : parse? text = some decimal) {character : Char} (member : character ∈ text) :
    isNumeric character = true := by
  obtain ⟨_, exponent, ends⟩ := of_parse? parsed
  refine isNumeric_of_splitSign (fun character unsigned => ?_) member
  rw [← List.takeWhile_append_dropWhile (p := isDigit) (l := (splitSign text).2)] at unsigned
  rcases List.mem_append.mp unsigned with digit | behind
  · exact isNumeric_of_isDigit (List.all_eq_true.mp List.all_takeWhile _ digit)
  · exact isNumeric_of_fractionOf (fun _ => isNumeric_of_exponentOf? ends) behind

end CampusRules.Decimal
