import DeskCalculator.Decimal.Basic

/-!
# The fewest digits that read back

Many decimals round to the same double, and the one to print is the one with the
fewest digits. The search goes over decimal grids, each ten times finer than the
one before, and takes the first grid that has a point which reads back as the
double.

On one grid only two points need to be tried, the neighbours of the double on
either side: the numbers that round to a double form an interval around it, so
if any point of the grid is in the interval, then so is a neighbour. If both are,
the nearer one is printed, and the upper one if the double is halfway between
them.

The first grid with a hit is the coarsest one, so the last digit is not a zero
and no decimal with fewer digits reads back. The search starts where the steps
are so wide that the first of them is already more than twice the double, and it
cannot come up empty: on the grid of `10 ^ -1074` the double itself is a point.
-/

namespace DeskCalculator.Decimal

/--
The grid on which the search starts. The magnitude is below `2 ^ bits`, and for
every finite double the first point of a still coarser grid is at least twice
that.
-/
def coarsestExponent (rank : Nat) : Int :=
  let bits : Int := (units rank).log2 - 1073
  bits * 3 / 10 + 2

/-- The grid on which every finite double is a point. -/
def finestExponent : Int := -1074

/--
The point of the grid of `10 ^ exponent` that reads back as the magnitude of the
given rank and is nearest to it, if there is one.
-/
def onGrid? (rank : Nat) (exponent : Int) : Option Decimal :=
  let num := units rank * Nat.pow 10 (-exponent).toNat
  let den := unitsPerOne * Nat.pow 10 exponent.toNat
  let below : Decimal := ⟨num / den, exponent⟩
  let above : Decimal := ⟨num / den + 1, exponent⟩
  if below.rank = rank then
    if above.rank = rank ∧ den ≤ 2 * (num % den) then some above else some below
  else if above.rank = rank then some above
  else none

/-- The magnitude of the given rank, written out exactly. -/
def exact (rank : Nat) : Decimal := ⟨units rank * Nat.pow 5 1074, finestExponent⟩

/-- The decimal with the fewest digits that reads back as the given positive magnitude. -/
def shortest (rank : Nat) : Decimal :=
  let coarsest := coarsestExponent rank
  let grids := List.range (coarsest - finestExponent + 1).toNat
  (grids.findSome? fun step : Nat => onGrid? rank (coarsest - step)).getD (exact rank)

end DeskCalculator.Decimal
