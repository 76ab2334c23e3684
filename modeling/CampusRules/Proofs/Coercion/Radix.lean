import CampusRules.Proofs.Coercion.Numeral
import CampusRules.Proofs.Number.Comparison
import CampusRules.Proofs.Number.Digitwise

/-!
# Literals with a radix

A literal is a zero, a letter that announces the radix, and digits. It is read digit by digit with
a rounding at each, and behind fifty-three bits a digit is too little to be noticed. So a literal
stands for its first digits with zeros for the others, rounded once, while the same number in
decimal is rounded as a whole. The two part where the first digits are a tie that only the others
would break.
-/

namespace CampusRules.Coercion

open Binary64

/-- The letters that announce a radix behind a zero, with the bits of a digit there. -/
def prefixes : List (Char × Nat) :=
  [('x', 4), ('X', 4), ('o', 3), ('O', 3), ('b', 1), ('B', 1)]

/-- A digit has bits. -/
theorem bits_pos {letter : Char} {bits : Nat} (announced : (letter, bits) ∈ prefixes) : 0 < bits := by
  have each : ∀ entry ∈ prefixes, 0 < entry.2 := by decide
  exact each _ announced

/-- The number that digits write in a radix behind a number that is written already; none if one
of them is no digit there. -/
def radixValue? (radix total : Nat) (digits : List Char) : Option Nat :=
  digits.foldlM (fun total character =>
    (radixDigit? radix character).map (total * radix + ·)) total

/-! ## Digits -/

/-- The value of a digit is below the radix. -/
theorem radixDigit?_lt {radix digit : Nat} {character : Char}
    (read : radixDigit? radix character = some digit) : digit < radix := by
  unfold radixDigit? at read
  exact of_decide_eq_true (Option.filter_eq_some_iff.mp read).2

/-- A digit is not a blank. -/
theorem isBlank_of_radixDigit? {radix digit : Nat} {character : Char}
    (read : radixDigit? radix character = some digit) : Text.isBlank character = false := by
  have range {low high : Char} (between : low ≤ character ∧ character ≤ high) :
      low.toNat ≤ character.toNat ∧ character.toNat ≤ high.toNat :=
    ⟨UInt32.le_iff_toNat_le.mp between.1, UInt32.le_iff_toNat_le.mp between.2⟩
  have visible {low high : Char} (between : low ≤ character ∧ character ≤ high)
      (above : 0x20 < low.toNat) (below : high.toNat < 0x80) : Text.isBlank character = false :=
    Text.isBlank_of_visible (Nat.lt_of_lt_of_le above (range between).1)
      (Nat.lt_of_le_of_lt (range between).2 below)
  unfold radixDigit? at read
  dsimp only at read
  split at read
  · rename_i decimal
    exact visible decimal (by decide) (by decide)
  · split at read
    · rename_i lower
      exact visible lower (by decide) (by decide)
    · split at read
      · rename_i upper
        exact visible upper (by decide) (by decide)
      · cases read

/-- In each radix that can be announced, a digit has the value that it was written for. -/
theorem radixDigit?_digitChar {letter : Char} {bits digit : Nat}
    (announced : (letter, bits) ∈ prefixes) (small : digit < 2 ^ bits) :
    radixDigit? (2 ^ bits) digit.digitChar = some digit := by
  have all : ∀ entry ∈ prefixes, ∀ digit < 2 ^ entry.2,
      radixDigit? (2 ^ entry.2) digit.digitChar = some digit := by decide
  exact all _ announced digit small

/-- Digits are read one by one. -/
theorem radixValue?_cons (radix total : Nat) (character : Char) (rest : List Char) :
    radixValue? radix total (character :: rest) =
      (radixDigit? radix character).bind fun digit =>
        radixValue? radix (total * radix + digit) rest := by
  rw [radixValue?, List.foldlM_cons]
  cases radixDigit? radix character <;> rfl

/-- Digits write no number only if one of them is no digit. -/
theorem radixValue?_eq_none_iff {radix total : Nat} {digits : List Char} :
    radixValue? radix total digits = none ↔
      ∃ character ∈ digits, radixDigit? radix character = none := by
  induction digits generalizing total with
  | nil => simp [radixValue?]
  | cons character rest inductionHypothesis =>
    rw [radixValue?_cons]
    cases read : radixDigit? radix character with
    | none => simp [read]
    | some digit => simp [read, inductionHypothesis]

/-- The digits of a number write that number. -/
theorem radixValue?_toDigits {radix : Nat} (large : 1 < radix)
    (readable : ∀ digit < radix, radixDigit? radix digit.digitChar = some digit) (number : Nat) :
    radixValue? radix 0 (Nat.toDigits radix number) = some number := by
  induction number using Nat.strongRecOn with
  | _ number inductionHypothesis =>
    rcases Nat.lt_or_ge number radix with small | further
    · rw [Nat.toDigits_of_lt_base small, radixValue?_cons, readable number small]
      simp [radixValue?]
    · have front := inductionHypothesis (number / radix) (Nat.div_lt_self (by omega) large)
      rw [Nat.toDigits_of_base_le large further, radixValue?, List.foldlM_append]
      change (radixValue? radix 0 _).bind (radixValue? radix · _) = _
      rw [front, Option.bind_some, radixValue?_cons, readable _ (Nat.mod_lt _ (by omega))]
      simp [radixValue?, Nat.div_add_mod']

/-- Leading zeros do not count. -/
theorem radixValue?_zeros {radix : Nat} (zero : radixDigit? radix '0' = some 0) (zeros : Nat)
    (digits : List Char) :
    radixValue? radix 0 (List.replicate zeros '0' ++ digits) = radixValue? radix 0 digits := by
  induction zeros with
  | zero => rfl
  | succ zeros inductionHypothesis =>
    rw [List.replicate_succ, List.cons_append, radixValue?_cons, zero, Option.bind_some,
      Nat.zero_mul, inductionHypothesis]

/-! ## What a literal stands for -/

/-- Reading digits with a rounding at each gives the number that is kept of theirs, rounded once. -/
theorem radixNumeral_eq {bits : Nat} (positive : 0 < bits) (total : Nat) (digits : List Char) :
    radixNumeral (2 ^ bits) (.ofNat false (kept bits total)) digits =
      match radixValue? (2 ^ bits) total digits with
      | some number => .ofNat false (kept bits number)
      | none => .undefined := by
  induction digits generalizing total with
  | nil => rfl
  | cons character rest inductionHypothesis =>
    rw [radixNumeral, radixValue?_cons]
    cases read : radixDigit? (2 ^ bits) character with
    | none => rfl
    | some digit =>
      dsimp only
      rw [Quantity.push_kept false positive (radixDigit?_lt read), inductionHypothesis,
        Option.bind_some]

/-- What stands behind a radix counts as the number that is kept of its digits, rounded once. There
must be digits, and nothing else. -/
theorem trimmedNumber_literal {letter : Char} {bits : Nat} (announced : (letter, bits) ∈ prefixes)
    (digits : List Char) :
    trimmedNumber ('0' :: letter :: digits) =
      if digits = [] then .undefined
      else match radixValue? (2 ^ bits) 0 digits with
        | some number => .ofNat false (kept bits number)
        | none => .undefined := by
  have numeric : beginsWithLetter ('0' :: letter :: digits) = false := rfl
  have each : ∀ entry ∈ prefixes, radix? ('0' :: entry.1 :: digits) = some (2 ^ entry.2, digits) := by
    simp [prefixes, radix?]
  have prefixed : radix? ('0' :: letter :: digits) = some (2 ^ bits, digits) := each _ announced
  have noWord : '0' :: letter :: digits ∉ words := by
    have begins : ∀ word ∈ words, word.head? ≠ some '0' := by decide
    exact fun member => begins _ member rfl
  have zero : Quantity.finite Binary64.zero = .ofNat false (kept bits 0) := by
    rw [kept_of_log2 (bits_pos announced) (by simp)]
    rfl
  rw [trimmedNumber_of_not_mem noWord, numeric, if_neg Bool.false_ne_true, prefixed]
  cases digits with
  | nil => rfl
  | cons first rest =>
    rw [if_neg (List.cons_ne_nil _ _), ← radixNumeral_eq (bits_pos announced), ← zero]

/-- Digits that write a number have no blank among them. -/
theorem trimEnd_of_radixValue? {radix total number : Nat} {digits : List Char}
    (value : radixValue? radix total digits = some number) : Text.trimEnd digits = digits := by
  apply Text.trimEnd_of_forall
  intro character member
  cases read : radixDigit? radix character with
  | some digit => exact isBlank_of_radixDigit? read
  | none =>
    rw [radixValue?_eq_none_iff.mpr ⟨character, member, read⟩] at value
    cases value

/-- A text that begins as a literal counts as that literal; blanks behind it are not part of it. -/
theorem textNumber_literal {letter : Char} {bits : Nat} (announced : (letter, bits) ∈ prefixes)
    (rest : List Char) :
    textNumber ('0' :: letter :: rest) =
      if Text.trimEnd rest = [] then .undefined
      else match radixValue? (2 ^ bits) 0 (Text.trimEnd rest) with
        | some number => .ofNat false (kept bits number)
        | none => .undefined := by
  have each : ∀ entry ∈ prefixes, Text.isBlank entry.1 = false := by decide
  rw [textNumber, Text.trim_cons (by decide), Text.trimEnd_cons (each _ announced),
    trimmedNumber_literal announced]

/-! ## Literals and decimal texts -/

/-- A literal as a value. -/
def literal (letter : Char) (digits : List Char) : Json :=
  .string (String.ofList ('0' :: letter :: digits))

/-- The decimal text of a number as a value. -/
def decimalText (number : Nat) : Json := .string (String.ofList (decimalDigits number))

/-- A decimal text stands for its number, rounded once. -/
theorem toNumber_decimalText (number : Nat) :
    toNumber (some (decimalText number)) = .ofNat false number := by
  rw [decimalText, toNumber_ofList]
  exact textNumber_decimalDigits false number

/-- A literal of a number stands for the same as its decimal text just if no tie is lost. -/
theorem toNumber_literal_iff {letter : Char} {bits number : Nat} {digits : List Char}
    (announced : (letter, bits) ∈ prefixes) (some' : digits ≠ [])
    (value : radixValue? (2 ^ bits) 0 digits = some number) :
    toNumber (some (literal letter digits)) = toNumber (some (decimalText number)) ↔
      ¬LosesTie bits number := by
  have untrimmed := trimEnd_of_radixValue? value
  rw [literal, toNumber_ofList, toNumber_decimalText, textNumber_literal announced, untrimmed,
    if_neg some', value]
  exact Quantity.ofNat_kept_iff false (bits_pos announced) number

/-- A literal stands for nothing just if it has no digits or a character that is none. -/
theorem toNumber_literal_eq_undefined_iff {letter : Char} {bits : Nat}
    (announced : (letter, bits) ∈ prefixes) (rest : List Char) :
    toNumber (some (literal letter rest)) = .undefined ↔
      Text.trimEnd rest = [] ∨
        ∃ character ∈ Text.trimEnd rest, radixDigit? (2 ^ bits) character = none := by
  rw [literal, toNumber_ofList, textNumber_literal announced,
    ← @radixValue?_eq_none_iff _ 0]
  split
  · rename_i none
    exact iff_of_true rfl (.inl none)
  · rename_i some'
    cases value : radixValue? (2 ^ bits) 0 (Text.trimEnd rest) with
    | none => exact iff_of_true rfl (.inr rfl)
    | some number =>
      have rounded : Quantity.ofNat false (kept bits number) ≠ .undefined :=
        Quantity.ofUnits_ne_undefined _ _ _
      exact iff_of_false rounded (by simp [some'])

/-- Literals and decimal texts of one number: digits with a radix in front, in either case and
with any zeros before them, come to what the decimal text comes to, which is the nearest number,
unless the digits that are not noticed would have broken a tie. -/
theorem literals_agree_with_decimals_iff {letter : Char} {bits : Nat}
    (announced : (letter, bits) ∈ prefixes) :
    (∀ digits number, digits ≠ [] → radixValue? (2 ^ bits) 0 digits = some number →
      (toNumber (some (literal letter digits)) = toNumber (some (decimalText number)) ↔
        ¬LosesTie bits number)) ∧
    (∀ zeros number, radixValue? (2 ^ bits) 0
      (List.replicate zeros '0' ++ Nat.toDigits (2 ^ bits) number) = some number) ∧
    (∀ number, (toNumber (some (decimalText number))).IsNearestTo number) ∧
    ∀ rest, toNumber (some (literal letter rest)) = .undefined ↔
      Text.trimEnd rest = [] ∨
        ∃ character ∈ Text.trimEnd rest, radixDigit? (2 ^ bits) character = none := by
  have large : 1 < 2 ^ bits := Nat.one_lt_two_pow (bits_pos announced).ne'
  have readable : ∀ digit < 2 ^ bits, radixDigit? (2 ^ bits) digit.digitChar = some digit :=
    fun _ small => radixDigit?_digitChar announced small
  refine ⟨?agreement, ?digits, ?nearest, ?nothing⟩
  case agreement => exact fun _ _ some' value => toNumber_literal_iff announced some' value
  case digits =>
    intro zeros number
    rw [radixValue?_zeros (readable 0 (by omega)), radixValue?_toDigits large readable]
  case nearest =>
    intro number
    rw [toNumber_decimalText]
    exact Quantity.isNearestTo_ofNat number
  case nothing => exact toNumber_literal_eq_undefined_iff announced

/-- The first number that needs more than fifty-three bits, as a hexadecimal literal. -/
theorem hexadecimal_literal_agrees :
    ('x', 4) ∈ prefixes ∧ "20000000000001".toList ≠ [] ∧
      radixValue? (2 ^ 4) 0 "20000000000001".toList = some 9007199254740993 ∧
      ¬LosesTie 4 9007199254740993 ∧
      toNumber (some (literal 'x' "20000000000001".toList)) =
        toNumber (some (decimalText 9007199254740993)) := by
  have announced : ('x', 4) ∈ prefixes := by decide
  have some' : "20000000000001".toList ≠ [] := by decide
  have value : radixValue? (2 ^ 4) 0 "20000000000001".toList = some 9007199254740993 := by decide
  have noticed : ¬LosesTie 4 9007199254740993 := by decide
  obtain ⟨agreement, _⟩ := literals_agree_with_decimals_iff announced
  exact ⟨announced, some', value, noticed, (agreement _ _ some' value).mpr noticed⟩

/-- A tie that only the last digit would break is rounded to the even number in a literal. -/
theorem hexadecimal_literal_loses_tie :
    radixValue? (2 ^ 4) 0 "200000000000011".toList = some 144115188075855889 ∧
      (toNumber (some (literal 'x' "200000000000011".toList))).bits = 0x4380000000000000 ∧
      (toNumber (some (decimalText 144115188075855889))).bits = 0x4380000000000001 := by
  decide +kernel

end CampusRules.Coercion
