import DeskCalculator.Binary64.Basic

/-!
# The ladder of magnitudes, and rounding onto it

Magnitudes are counted in *units* of `2 ^ -1074`, the smallest subnormal. Every
finite double is a whole number of units, so sums, products and decimal values
can all be compared with doubles in exact integer arithmetic.

The ladder of representable magnitudes has one step for every rank, and here it
goes on without end: above the largest finite double it continues with the same
spacing rule. Rounding first finds the nearest step, whatever its size, and only
then looks whether that step is still a finite double. This is the rule of the
standard: what rounds to the first step past the largest finite double, or
beyond, overflows.

* `units` is the size of a step and `rankBelow` the last step that is no larger
  than a given number of units;
* `nearestRank` rounds a quotient of units to the nearest step, an exact tie
  going to the step of even rank;
* `Binary64.ofRatio` is correct rounding of a signed quotient.
-/

namespace DeskCalculator

/-- One, in units of `2 ^ -1074`. -/
def unitsPerOne : Nat := Nat.pow 2 1074

/--
The size of the step of the given rank, in units. The lowest `2 ^ 53` steps are
one unit apart, and from there on the spacing doubles every `2 ^ 52` steps.
-/
def units (rank : Nat) : Nat :=
  let shift := rank / Nat.pow 2 52 - 1
  (rank - shift * Nat.pow 2 52) * Nat.pow 2 shift

/-- The rank of the largest step that is no larger than `n` units. -/
def rankBelow (n : Nat) : Nat :=
  let shift := n.log2 - 52
  shift * Nat.pow 2 52 + n / Nat.pow 2 shift

/--
The rank of the step nearest to `num / den` units, for a positive `den`. The
quotient lies between two neighbouring steps and is compared with the point
halfway between them; at the halfway point the even rank wins.
-/
def nearestRank (num den : Nat) : Nat :=
  let low := rankBelow (num / den)
  let halfway := (units low + units (low + 1)) * den
  if 2 * num < halfway ∨ 2 * num = halfway ∧ low % 2 = 0 then low else low + 1

namespace Binary64

/-- The double at a step of the ladder: past the last finite one there is only infinity. -/
def ofRank (negative : Bool) (rank : Nat) : Binary64 :=
  if h : rank < finiteRanks then .finite negative ⟨rank, h⟩ else .infinite negative

/-- The double nearest to `num / den` units of `2 ^ -1074`, for a positive `den`. -/
def ofRatio (negative : Bool) (num den : Nat) : Binary64 :=
  ofRank negative (nearestRank num den)

/-- A finite double without a fractional part. -/
def isInteger : Binary64 → Bool
  | finite _ rank => units rank % unitsPerOne = 0
  | _ => false

end Binary64

end DeskCalculator
