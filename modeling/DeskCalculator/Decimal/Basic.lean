import DeskCalculator.Binary64.Ladder

/-!
# Decimal numbers

A `Decimal` is a natural number of digits moved by a power of ten. It is how a
number stands in a text: what a literal says, what a rounding to ten places
gives, and what is printed. It is exact; a double comes out of it only through
`toBinary64`, which rounds once.

The exponent of a literal can be as large as someone cares to type, so
`toBinary64` settles the hopeless cases, far above and far below every double,
before it computes a power of ten. In between, `Decimal.rank` gives the nearest
step of the ladder.
-/

namespace DeskCalculator

/-- The number `digits * 10 ^ exponent`. -/
structure Decimal where
  digits : Nat
  exponent : Int
  deriving DecidableEq, Repr

namespace Decimal

/-- The rank of the magnitude nearest to the decimal, with ties to the even rank. -/
def rank (d : Decimal) : Nat :=
  nearestRank (d.digits * Nat.pow 10 d.exponent.toNat * unitsPerOne)
    (Nat.pow 10 (-d.exponent).toNat)

/-- From this exponent on, every decimal but zero lies above all finite doubles. -/
def overflowExponent : Int := 310

/-- A decimal below ten to this power is less than half the smallest subnormal. -/
def underflowExponent : Int := -325

/--
The double nearest to the decimal, with the given sign. A number of `n` binary
digits is below `10 ^ n`, so the sum of `n` and the exponent bounds the decimal
from above.
-/
def toBinary64 (negative : Bool) (d : Decimal) : Binary64 :=
  if d.digits = 0 then .zero negative
  else if overflowExponent ≤ d.exponent then .infinite negative
  else if d.exponent + (d.digits.log2 + 1) ≤ underflowExponent then .zero negative
  else .ofRank negative d.rank

end Decimal

end DeskCalculator
