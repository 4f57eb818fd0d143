/-!
# Binary floating point, one value per number

A `Binary64` is a value of the IEEE 754 double format, told apart exactly as far
as the calculator can tell it apart: one NaN, two infinities, and the finite
values, each a sign and a place in the ascending list of magnitudes.

The place is called the *rank*. The magnitudes are listed from zero upwards, so
rank `0` is zero, rank `1` the smallest subnormal, and the last rank the largest
finite double. Every rank below `finiteRanks` is a different number, so two
finite values of one sign are equal as data exactly when they are the same
double: there is no second way to write a value down, and equality is decidable.

The rank of a double is what remains of its 64 bits when the sign is taken off,
which is what `ofBits` reads.
-/

namespace DeskCalculator

/-- How many magnitudes are finite: `2047` exponents of `2 ^ 52` fractions each. -/
def finiteRanks : Nat := 2047 * Nat.pow 2 52

/-- A double: not a number, an infinity, or a signed place among the finite magnitudes. -/
inductive Binary64 where
  | nan
  | infinite (negative : Bool)
  | finite (negative : Bool) (rank : Fin finiteRanks)
  deriving DecidableEq, Repr

namespace Binary64

def zero (negative : Bool) : Binary64 := .finite negative ⟨0, by decide⟩

instance : Inhabited Binary64 := ⟨zero false⟩

/-- Reads the 64 bits of the interchange format: the sign, then the rank. -/
def ofBits (bits : UInt64) : Binary64 :=
  let negative : Bool := Nat.pow 2 63 ≤ bits.toNat
  let magnitude := bits.toNat % Nat.pow 2 63
  if h : magnitude < finiteRanks then .finite negative ⟨magnitude, h⟩
  else if magnitude = finiteRanks then .infinite negative
  else .nan

def isNaN : Binary64 → Bool
  | nan => true
  | _ => false

/-- Neither NaN nor an infinity. -/
def isFinite : Binary64 → Bool
  | finite _ _ => true
  | _ => false

def isZero : Binary64 → Bool
  | finite _ rank => rank.val = 0
  | _ => false

/-- Less than zero, which a zero of either sign is not. -/
def isBelowZero : Binary64 → Bool
  | nan => false
  | infinite negative => negative
  | finite negative rank => negative && rank.val ≠ 0

/-- The same magnitude with the other sign; NaN has no sign to change. -/
def neg : Binary64 → Binary64
  | nan => nan
  | infinite negative => infinite !negative
  | finite negative rank => finite (!negative) rank

instance : Neg Binary64 := ⟨neg⟩

@[simp] theorem neg_neg (v : Binary64) : - -v = v := by
  cases v <;> simp [Neg.neg, neg]

end Binary64

end DeskCalculator
