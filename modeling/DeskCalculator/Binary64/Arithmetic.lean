import DeskCalculator.Binary64.Ladder

/-!
# The four operations on doubles

Each operation computes its exact result as a signed quotient of units and
rounds it once, to the nearest double with ties to even. What is left are the
rules for operands that have no finite size, and for the sign of a zero:

* a sum that is exactly zero is positive, unless both terms are negative;
* a product or a quotient is negative when exactly one operand is, also when it
  is zero;
* infinities of opposite sign have no sum, infinity times zero has no product,
  and zero over zero and infinity over infinity have no quotient.
-/

namespace DeskCalculator.Binary64

/-- The signed size of a finite double in units. -/
def signedUnits (negative : Bool) (rank : Nat) : Int :=
  if negative then -(units rank : Int) else units rank

/-- The correctly rounded sum. -/
def add : Binary64 → Binary64 → Binary64
  | nan, _ => nan
  | _, nan => nan
  | infinite n, infinite m => if n = m then infinite n else nan
  | infinite n, finite _ _ => infinite n
  | finite _ _, infinite m => infinite m
  | finite n a, finite m b =>
    let total := signedUnits n a + signedUnits m b
    let negative := if total = 0 then n && m else decide (total < 0)
    ofRatio negative total.natAbs 1

/-- The correctly rounded difference. -/
def sub (a b : Binary64) : Binary64 := add a (-b)

/-- The correctly rounded product. -/
def mul : Binary64 → Binary64 → Binary64
  | nan, _ => nan
  | _, nan => nan
  | infinite n, infinite m => infinite (n ^^ m)
  | infinite n, finite m b => if b.val = 0 then nan else infinite (n ^^ m)
  | finite n a, infinite m => if a.val = 0 then nan else infinite (n ^^ m)
  | finite n a, finite m b => ofRatio (n ^^ m) (units a * units b) unitsPerOne

/-- The correctly rounded quotient. -/
def div : Binary64 → Binary64 → Binary64
  | nan, _ => nan
  | _, nan => nan
  | infinite _, infinite _ => nan
  | infinite n, finite m _ => infinite (n ^^ m)
  | finite n _, infinite m => zero (n ^^ m)
  | finite n a, finite m b =>
    if b.val = 0 then
      if a.val = 0 then nan else infinite (n ^^ m)
    else
      ofRatio (n ^^ m) (units a * unitsPerOne) (units b)

instance : Add Binary64 := ⟨add⟩
instance : Sub Binary64 := ⟨sub⟩
instance : Mul Binary64 := ⟨mul⟩
instance : Div Binary64 := ⟨div⟩

end DeskCalculator.Binary64
