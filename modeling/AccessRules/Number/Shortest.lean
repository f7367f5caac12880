import AccessRules.Number.Binary64

namespace AccessRules.Binary64

/-! The shortest decimal that reads back as a given number.

For one digit, two digits and so on the value has two neighbours on the grid of
decimals with that many digits. The first grid on which a neighbour reads back
wins; of two neighbours that both do, the nearer one is taken.
-/

open NaturalPower

/-- The power of ten just above a finite nonzero magnitude. Every such magnitude
exceeds `10 ^ -400`, so the digits of the scaled quotient show it. -/
def decimalPoint (code : Nat) : Int :=
  (Nat.toDigits 10 (numerator code * 10 ^ (400 : Nat) / denominator code)).length - 400

/-- A magnitude on a grid of decimals: the grid point below it, the exponent of the
grid, and the part of a grid step that the magnitude lies past that point. -/
structure GridNeighbours where
  lower : Nat
  exponent : Int
  excess : Nat
  step : Nat

/-- The neighbours of a magnitude with `count` digits, for a decimal point at `point`. -/
def GridNeighbours.of (code : Nat) (point : Int) (count : Nat) : GridNeighbours :=
  let exponent := point - count
  let scaled := numerator code * 10 ^ (-exponent).toNat
  let step := denominator code * 10 ^ exponent.toNat
  ⟨scaled / step, exponent, scaled % step, step⟩

def readsBack (code : Nat) (value : Decimal) : Bool :=
  (ofDecimal false value).code == code

/-- Whether the lower neighbour is to be preferred when both read back. -/
def GridNeighbours.prefersLower (grid : GridNeighbours) (tie : Decimal.Tie) : Bool :=
  decide (2 * grid.excess < grid.step) ||
    (decide (2 * grid.excess = grid.step) && tie == .even && grid.lower % 2 == 0)

/-- The neighbour that reads back, the preferred one before the other. -/
def GridNeighbours.choose (grid : GridNeighbours) (tie : Decimal.Tie) (code : Nat) :
    Option Decimal :=
  let lower := Decimal.strip grid.lower grid.exponent
  let upper := Decimal.strip (grid.lower + 1) grid.exponent
  let (preferred, other) := if grid.prefersLower tie then (lower, upper) else (upper, lower)
  if readsBack code preferred then some preferred
  else if readsBack code other then some other
  else none

/-- The magnitude with all its digits: a negative power of two is the power of
five at the same negative power of ten. -/
def exactDecimal (code : Nat) : Decimal :=
  Decimal.strip (numerator code * 5 ^ (-scale code).toNat) (-((-scale code).toNat : Int))

/-- The shortest decimal that reads back as the finite nonzero magnitude `code`. -/
def shortestOfCode (tie : Decimal.Tie) (code : Nat) : Decimal :=
  let point := decimalPoint code
  let found := (List.range 17).findSome? fun index =>
    (GridNeighbours.of code point (index + 1)).choose tie code
  found.getD (exactDecimal code)

def shortest (number : Binary64) (tie : Decimal.Tie) : Decimal :=
  shortestOfCode tie number.code

theorem GridNeighbours.readsBack_of_choose {grid : GridNeighbours} {tie : Decimal.Tie} {code : Nat}
    {value : Decimal} (chosen : grid.choose tie code = some value) :
    readsBack code value = true := by
  unfold GridNeighbours.choose at chosen
  grind

end AccessRules.Binary64
