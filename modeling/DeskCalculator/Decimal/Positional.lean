import DeskCalculator.Decimal.Basic

/-!
# Decimals written out in full

A decimal is written with all its places and never with an exponent: trailing
zeros up to the units, or leading zeros down to the first place after the point.
At least one digit stands before the point.
-/

namespace DeskCalculator.Decimal

/-- The decimal as digits with at most one point. -/
def positional (d : Decimal) : List Char :=
  let places := (-d.exponent).toNat
  let numeral := Nat.toDigits 10 d.digits
  if places = 0 then
    numeral ++ List.replicate d.exponent.toNat '0'
  else
    let padded := numeral.leftpad (places + 1) '0'
    let whole := padded.length - places
    padded.take whole ++ '.' :: padded.drop whole

end DeskCalculator.Decimal
