import DeskCalculator.Decimal.Positional
import DeskCalculator.Decimal.Shortest

/-!
# The text of a double

A finite double is printed with the fewest digits that read back as it, written
out in full. The sign of a zero is printed, a NaN has no sign.
-/

namespace DeskCalculator.Binary64

/-- The digits of a finite magnitude. -/
def magnitudeText (rank : Nat) : List Char :=
  if rank = 0 then ['0'] else (Decimal.shortest rank).positional

/-- A minus sign, when the number is negative. -/
def signText (negative : Bool) : List Char :=
  if negative then ['-'] else []

def text : Binary64 → String
  | nan => "NaN"
  | infinite negative => if negative then "-inf" else "inf"
  | finite negative rank => String.ofList (signText negative ++ magnitudeText rank)

end DeskCalculator.Binary64
