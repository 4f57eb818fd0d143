import DeskCalculator.Operator

/-!
# Keys

A key is what a button of the pad or a stroke on the keyboard means, whatever
produced it. Most keys act on the entry session; two of them act on the field of
the variable.
-/

namespace DeskCalculator

inductive Key where
  | digit (c : Char)
  | decimal
  | operator (op : Operator)
  | insertVariable
  | equals
  | delete
  | clear
  /-- A digit for the field of the variable. -/
  | fieldDigit (c : Char)
  /-- Delete in the field of the variable. -/
  | fieldDelete
  deriving DecidableEq, Repr

namespace Key

/-- The key that a typed character means. A comma is a point, and either case of X will do. -/
def ofChar? (c : Char) : Option Key :=
  if c.isDigit then some (.digit c)
  else if c = '.' ∨ c = ',' then some .decimal
  else if c = '=' then some .equals
  else if c = 'x' ∨ c = 'X' then some .insertVariable
  else (Operator.ofChar? c).map .operator

end Key

end DeskCalculator
