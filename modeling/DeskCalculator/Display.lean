import DeskCalculator.Binary64.Text
import DeskCalculator.Literal

/-!
# Results as they are shown

A result is tidied before it is shown: unless it is a whole number, it is rounded
to ten decimal places, which wipes out the noise of binary fractions, so that
`0.1 + 0.2` becomes `0.3`. An exact tie goes away from zero. The sign is kept even
when nothing else is left, and only the shown text forgets the sign of a zero.

The rounding is done by hand, on the digits. The magnitude is written out with all
its decimals, which is exact; the digits up to the last place kept are increased
by one if the digit after them is five or more; the point is put back in front of
the places, and the text is read as a double again. A magnitude that is not
written with a point and one place more than is kept cannot be rounded so, and the
result is left as it is.
-/

namespace DeskCalculator.Display

/-- How many decimal places a result keeps. -/
def places : Nat := 10

/-- The magnitude of a double, written out with all its decimals. -/
def exactText : Binary64 → List Char
  | .nan => ['N', 'a', 'N']
  | .infinite _ => ['i', 'n', 'f']
  | .finite _ rank => (Decimal.exact rank).positional

/-- What stands before the first point of a text, and what after it. -/
def splitAtPoint? (text : List Char) : Option (List Char × List Char) :=
  match text.dropWhile (· != '.') with
  | [] => none
  | _ :: after => some (text.takeWhile (· != '.'), after)

/--
One more in the last place of a row of digits, which is given from its last digit
on. A nine becomes a zero and carries; the flag says that even the first digit did.
-/
def carry : List Char → List Char × Bool
  | [] => ([], true)
  | digit :: before =>
    if digit = '9' then
      let (before, carries) := carry before
      ('0' :: before, carries)
    else (Char.ofNat (digit.toNat + 1) :: before, false)

/-- The digits of the next number; nothing but nines makes them one digit longer. -/
def increment (digits : List Char) : List Char :=
  let (reversed, carries) := carry digits.reverse
  if carries then '1' :: reversed.reverse else reversed.reverse

/-- A text with a point rounded to some decimals; it must have at least one more. -/
def roundDigits? (decimals : Nat) (text : List Char) : Option (List Char) := do
  let (whole, fraction) ← splitAtPoint? text
  let next ← fraction[decimals]?
  let kept := whole ++ fraction.take decimals
  let digits := if '5' ≤ next then increment kept else kept
  let point := digits.length - decimals
  some (digits.take point ++ '.' :: digits.drop point)

/-- A double rounded to some decimals, an exact tie going away from zero. -/
def round? (decimals : Nat) (v : Binary64) : Option Binary64 := do
  let text ← roundDigits? decimals (exactText v)
  let magnitude ← Binary64.parse? text
  some (if v.isBelowZero then -magnitude else magnitude)

/-- A result with its binary noise removed. -/
def tidy (v : Binary64) : Binary64 :=
  if !v.isFinite || v.isInteger then v else (round? places v).getD v

/-- The text shown for a result. -/
def text (v : Binary64) : String :=
  if v.isZero then "0" else v.text

end DeskCalculator.Display
