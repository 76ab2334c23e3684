import CampusRules.Number.Decimal

/-!
# The fewest digits that read back

Every binary64 magnitude is a whole number of units of `10 ^ (-1074)`, its
*expansion*. Keeping only the leading digits of the expansion, rounded down or
up, gives the two neighbours of the magnitude on a coarser decimal grid. The
shortest form is the first grid, from one digit on, with a neighbour that reads
back as the same number; of two such neighbours the nearer is taken, and a
`Tie` decides between equally near ones. On the finest grid the neighbour is the
expansion itself, so the search always ends.

`Layout` says how the chosen digits are written: which decimal exponents are
positional, whether a point is always there, and how zero looks.
-/

namespace CampusRules

/-- Which of two equally near decimal neighbours is preferred. -/
inductive Tie where
  | even
  | up
  deriving DecidableEq, Repr

namespace Binary64

/-- How many units of `10 ^ (-1074)` one unit of `2 ^ (-1074)` is. -/
def decimalUnits : Nat := Nat.pow 5 1074

/-- The magnitude in units of `10 ^ (-1074)`, exactly. -/
def expansion (number : Binary64) : Nat := number.units * decimalUnits

/-- Whether a magnitude in units of `10 ^ (-1074)` rounds to this number. -/
def readsBack (number : Binary64) (candidate : Nat) : Bool :=
  nearestIndex candidate decimalUnits == number.index.val

/-- The neighbour of the expansion on the grid of multiples of `grid` that reads
back, if there is one, preferring the nearer. -/
def neighbour? (tie : Tie) (number : Binary64) (grid : Nat) : Option Nat :=
  let exact := number.expansion
  let lower := exact / grid * grid
  let upper := lower + grid
  let preferred :=
    if exact - lower < upper - exact then lower
    else if upper - exact < exact - lower then upper
    else match tie with
      | .up => upper
      | .even => if exact / grid % 2 = 0 then lower else upper
  let other := if preferred = lower then upper else lower
  if number.readsBack preferred then some preferred
  else if number.readsBack other then some other
  else none

/-- The shortest magnitude that reads back, in units of `10 ^ (-1074)`. -/
def shortestUnits (tie : Tie) (number : Binary64) : Nat :=
  let width := (decimalDigits number.expansion).length
  ((List.range width).findSome? fun kept =>
    number.neighbour? tie (Nat.pow 10 (width - (kept + 1)))).getD number.expansion

/-- The digits of the shortest form without trailing zeros, and the power of ten
of the last of them. -/
def shortestDigits (tie : Tie) (number : Binary64) : List Char × Int :=
  let digits := decimalDigits (number.shortestUnits tie)
  let trailing := (digits.reverse.takeWhile (· == '0')).length
  (digits.take (digits.length - trailing), (trailing : Int) - 1074)

end Binary64

/-- How a binary64 number is written out in decimal. -/
structure Layout where
  /-- The least decimal exponent that is written positionally. -/
  leastPositional : Int
  /-- The greatest decimal exponent that is written positionally. -/
  greatestPositional : Int
  /-- Whether a whole number in positional form ends in `.0`. -/
  wholePoint : Bool
  /-- Whether the negative zero keeps its sign. -/
  signedZero : Bool
  tie : Tie

namespace Layout

/-- Digits in positional form; `exponent` is the power of ten of the last one. -/
def positional (layout : Layout) (digits : List Char) (exponent : Int) : List Char :=
  if 0 ≤ exponent then
    digits ++ List.replicate exponent.toNat '0' ++ if layout.wholePoint then ['.', '0'] else []
  else
    let whole := (digits.length : Int) + exponent
    if 0 < whole then
      digits.take whole.toNat ++ '.' :: digits.drop whole.toNat
    else
      '0' :: '.' :: List.replicate (-whole).toNat '0' ++ digits

/-- Digits in exponent form: a point after the first if more follow, and an
exponent that always has a sign. -/
def scientific (digits : List Char) (leading : Int) : List Char :=
  let significand := match digits with
    | first :: second :: rest => first :: '.' :: second :: rest
    | short => short
  significand ++ 'e' :: (if leading < 0 then '-' else '+') :: decimalDigits leading.natAbs

/-- The text of a number. -/
def write (layout : Layout) (number : Binary64) : List Char :=
  if number.isZero then
    (if number.negative && layout.signedZero then ['-'] else []) ++
      if layout.wholePoint then ['0', '.', '0'] else ['0']
  else
    let (digits, exponent) := number.shortestDigits layout.tie
    let leading := exponent + digits.length - 1
    (if number.negative then ['-'] else []) ++
      if layout.leastPositional ≤ leading ∧ leading ≤ layout.greatestPositional then
        layout.positional digits exponent
      else scientific digits leading

/-- Numbers inside JSON text are positional from `10 ^ (-5)` to below `10 ^ 16`,
always show a point there, and keep the sign of zero. -/
def json : Layout := ⟨-5, 15, true, true, .even⟩

/-- Numbers rendered into running text are positional from `10 ^ (-6)` to below
`10 ^ 21`, show a point only before a fraction, and have one zero. -/
def plain : Layout := ⟨-6, 20, false, false, .up⟩

end Layout
end CampusRules
