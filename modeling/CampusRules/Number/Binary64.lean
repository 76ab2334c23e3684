/-!
# Finite binary64 numbers in exact arithmetic

A finite binary64 number is a sign and an index into the increasing list of
non-negative magnitudes. Every magnitude is a whole multiple of `2 ^ (-1074)`,
so its value is the natural number of such *units*, and comparison is comparison
of integers. Nothing here uses machine floating point: each operation reduces
to arithmetic on `Nat` and `Int`, which the kernel evaluates.

`Binary64.nearest` rounds an exact ratio to the closest magnitude, ties to the
even index. The index is computed directly, `exponent * block + significand`,
which is also right when rounding carries into the next power of two.

`Quantity` adds the two infinities and the undefined result. It is what loose
coercion yields; a JSON number is always a `Binary64` or an integer.
-/

namespace CampusRules

/-- How many fractions an exponent field has: `2 ^ 52`. -/
abbrev Binary64.block : Nat := 0x10000000000000

/-- How many finite magnitudes there are: the fractions of 2047 exponent fields. -/
abbrev Binary64.magnitudes : Nat := 2047 * Binary64.block

/-- A finite binary64 number. The index of its magnitude is the number of
smaller non-negative magnitudes. -/
structure Binary64 where
  negative : Bool
  index : Fin Binary64.magnitudes
  deriving DecidableEq

namespace Binary64

/-- The magnitude at an index, counted in units of `2 ^ (-1074)`. In the first block
the spacing is one unit, and in the second; each further block doubles it. -/
def unitsAt (index : Nat) : Nat :=
  if index < block then index
  else (block + index % block) <<< (index / block - 1)

/-- The magnitude of a number in units. -/
def units (number : Binary64) : Nat := unitsAt number.index.val

/-- The value of a number in units. Both zeros have value zero. -/
def value (number : Binary64) : Int :=
  if number.negative then -(number.units : Int) else number.units

/-- The zero with a sign. -/
def signedZero (negative : Bool) : Binary64 := ⟨negative, ⟨0, by decide⟩⟩

/-- The positive zero. -/
def zero : Binary64 := signedZero false

/-- Whether a number is one of the two zeros. -/
def isZero (number : Binary64) : Bool := number.index.val == 0

/-- Numerical equality; the two zeros are equal. -/
def equals (left right : Binary64) : Bool := decide (left.value = right.value)

/-- Numerical order. -/
def lessThan (left right : Binary64) : Bool := decide (left.value < right.value)

theorem equals_iff (left right : Binary64) :
    left.equals right = true ↔ left.value = right.value := by simp [equals]

theorem lessThan_iff (left right : Binary64) :
    left.lessThan right = true ↔ left.value < right.value := by simp [lessThan]

/-- The whole number nearest to `numerator / denominator`, ties to even. -/
def roundHalfEven (numerator denominator : Nat) : Nat :=
  let quotient := numerator / denominator
  let remainder := numerator % denominator
  if 2 * remainder < denominator then quotient
  else if denominator < 2 * remainder then quotient + 1
  else if quotient % 2 = 0 then quotient else quotient + 1

/-- The exponent of the spacing around `numerator / denominator` units: zero for
magnitudes below `2 ^ 53`, otherwise one more for each further doubling. -/
def spacing (numerator denominator : Nat) : Nat :=
  (numerator / denominator).log2 + 1 - 53

/-- The index of the magnitude nearest to `numerator / denominator` units. An
index at or above `magnitudes` stands for a magnitude too large to be finite. -/
def nearestIndex (numerator denominator : Nat) : Nat :=
  let exponent := spacing numerator denominator
  exponent * block + roundHalfEven numerator (denominator <<< exponent)

/-- The bit that marks a negative number. -/
def signBit : Nat := 0x8000000000000000

/-- The sixty-four bits of a number: sign, exponent field, fraction. -/
def bits (number : Binary64) : Nat :=
  (if number.negative then signBit else 0) + number.index.val

end Binary64

/-- The result of numeric coercion: undefined, infinite, or a finite number. -/
inductive Quantity where
  | undefined
  | infinite (negative : Bool)
  | finite (number : Binary64)
  deriving DecidableEq

namespace Quantity

/-- The magnitude `numerator / denominator` units with a sign, rounded to the
nearest number; beyond the largest finite number it is infinite. -/
def ofUnits (negative : Bool) (numerator denominator : Nat) : Quantity :=
  let index := Binary64.nearestIndex numerator denominator
  if bounded : index < Binary64.magnitudes then .finite ⟨negative, ⟨index, bounded⟩⟩
  else .infinite negative

/-- A natural number with a sign, rounded. -/
def ofNat (negative : Bool) (number : Nat) : Quantity :=
  ofUnits negative (number <<< 1074) 1

/-- An integer, rounded. The zero integer is the positive zero. -/
def ofInt (number : Int) : Quantity := ofNat (decide (number < 0)) number.natAbs

/-- Numerical equality. The undefined result equals nothing, itself included. -/
def equals : Quantity → Quantity → Bool
  | .infinite left, .infinite right => left == right
  | .finite left, .finite right => left.equals right
  | _, _ => false

/-- Numerical order. The undefined result is neither below nor above anything. -/
def lessThan : Quantity → Quantity → Bool
  | .undefined, _ | _, .undefined => false
  | .infinite left, .infinite right => left && !right
  | .infinite left, .finite _ => left
  | .finite _, .infinite right => !right
  | .finite left, .finite right => left.lessThan right

/-- Whether a coerced number counts as true: every number does but the zeros and
the undefined result. -/
def isTruthy : Quantity → Bool
  | .undefined => false
  | .infinite _ => true
  | .finite number => !number.isZero

/-- A non-negative quantity times a natural number, rounded once. -/
def timesNat (quantity : Quantity) (factor : Nat) : Quantity :=
  match quantity with
  | .finite number => ofUnits number.negative (number.units * factor) 1
  | other => other

/-- A non-negative quantity plus a natural number, rounded once. -/
def plusNat (quantity : Quantity) (summand : Nat) : Quantity :=
  match quantity with
  | .finite number => ofUnits number.negative (number.units + (summand <<< 1074)) 1
  | other => other

/-- The sixty-four bits of a quantity; the undefined result has none of its own
and is represented by the positive quiet pattern. -/
def bits : Quantity → Nat
  | .undefined => 0x7ff8000000000000
  | .infinite negative => (if negative then Binary64.signBit else 0) + Binary64.magnitudes
  | .finite number => number.bits

/-- No quantity is at once below and equal to another. -/
theorem lessThan_not_equals (left right : Quantity)
    (below : left.lessThan right = true) : left.equals right = false := by
  cases left <;> cases right <;>
    simp_all [lessThan, equals, Binary64.equals, Binary64.lessThan]
  omega

/-- Order is asymmetric. -/
theorem lessThan_asymmetric (left right : Quantity)
    (below : left.lessThan right = true) : right.lessThan left = false := by
  cases left <;> cases right <;> simp_all [lessThan, Binary64.lessThan]
  omega

end Quantity
end CampusRules
