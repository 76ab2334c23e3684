import CampusRules.Number.Binary64

/-!
# Decimal numerals

A `Decimal` is a sign, a whole significand and a power of ten. Its nearest
binary64 number is found by rounding the exact ratio once. Numerals whose power
of ten alone decides that they overflow or vanish are settled first, so that no
huge power is ever computed.

`Decimal.parse?` reads the loose numeral grammar: an optional sign, digits with
an optional point before, among or after them, and an optional exponent. Digits
are ASCII only.
-/

namespace CampusRules

/-- The decimal number `± significand * 10 ^ exponent`. -/
structure Decimal where
  negative : Bool
  significand : Nat
  exponent : Int
  deriving DecidableEq, Repr

/-- The value of an ASCII digit. -/
def digitValue? (character : Char) : Option Nat :=
  if '0' ≤ character ∧ character ≤ '9' then some (character.toNat - '0'.toNat) else none

/-- Whether a character is an ASCII digit. -/
def isDigit (character : Char) : Bool := (digitValue? character).isSome

/-- The value of a digit in a radix up to thirty-six, letters in either case
standing for the digits from ten on. -/
def radixDigit? (radix : Nat) (character : Char) : Option Nat :=
  let candidate :=
    if '0' ≤ character ∧ character ≤ '9' then some (character.toNat - '0'.toNat)
    else if 'a' ≤ character ∧ character ≤ 'z' then some (character.toNat - 'a'.toNat + 10)
    else if 'A' ≤ character ∧ character ≤ 'Z' then some (character.toNat - 'A'.toNat + 10)
    else none
  candidate.filter (· < radix)

/-- The number that a run of ASCII digits writes in base ten; other characters
count as zero. -/
def numeral (digits : List Char) : Nat :=
  digits.foldl (fun total digit => 10 * total + (digitValue? digit).getD 0) 0

/-- The decimal digits of a natural number, without leading zeros. -/
def decimalDigits (number : Nat) : List Char := Nat.toDigits 10 number

/-- The decimal text of an integer. -/
def integerText (number : Int) : List Char :=
  if number < 0 then '-' :: decimalDigits number.natAbs else decimalDigits number.natAbs

namespace Decimal

/-- The nearest binary64 number. A power above `10 ^ 400` overflows whatever the
nonzero significand; a significand has fewer decimal than binary digits, so a
power below `10 ^ (-400)` beyond those digits vanishes. -/
def toQuantity (decimal : Decimal) : Quantity :=
  if decimal.significand = 0 then .finite (Binary64.signedZero decimal.negative)
  else if 400 < decimal.exponent then .infinite decimal.negative
  else if decimal.exponent < -(400 + decimal.significand.log2 + 1 : Int) then
    .finite (Binary64.signedZero decimal.negative)
  else if 0 ≤ decimal.exponent then
    .ofUnits decimal.negative
      ((decimal.significand * Nat.pow 10 decimal.exponent.toNat) <<< 1074) 1
  else
    .ofUnits decimal.negative (decimal.significand <<< 1074)
      (Nat.pow 10 (-decimal.exponent).toNat)

/-- Splits off an optional sign; a minus sign makes the first component true. -/
def splitSign : List Char → Bool × List Char
  | '-' :: rest => (true, rest)
  | '+' :: rest => (false, rest)
  | text => (false, text)

/-- Reads an exponent that must reach the end of the text. -/
def parseExponent? (text : List Char) : Option Int :=
  let (negative, digits) := splitSign text
  if digits ≠ [] ∧ digits.all isDigit then
    some (if negative then -(numeral digits : Int) else numeral digits)
  else none

/-- Reads a whole text as a loose numeral: sign, digits around an optional point
with at least one digit, optional exponent, and nothing else. -/
def parse? (text : List Char) : Option Decimal := do
  let (negative, unsigned) := splitSign text
  let whole := unsigned.takeWhile isDigit
  let afterWhole := unsigned.dropWhile isDigit
  let (fraction, afterFraction) :=
    match afterWhole with
    | '.' :: rest => (rest.takeWhile isDigit, rest.dropWhile isDigit)
    | rest => ([], rest)
  if whole = [] ∧ fraction = [] then none
  let exponent ← match afterFraction with
    | [] => some 0
    | 'e' :: rest | 'E' :: rest => parseExponent? rest
    | _ => none
  some ⟨negative, numeral (whole ++ fraction), exponent - fraction.length⟩

end Decimal
end CampusRules
