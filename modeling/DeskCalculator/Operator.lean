import DeskCalculator.Binary64.Arithmetic
import DeskCalculator.EvalError

/-!
# The four operators

Multiplication and division bind tighter than addition and subtraction, and all
four associate to the left, so `a - b - c` is `(a - b) - c`.
-/

namespace DeskCalculator

inductive Operator where
  | add
  | sub
  | mul
  | div
  deriving DecidableEq, Repr

/-- Which of two equal operators in a row takes its operands first. -/
inductive Associativity where
  | left
  | right
  deriving DecidableEq, Repr

namespace Operator

def symbol : Operator → Char
  | add => '+'
  | sub => '-'
  | mul => '*'
  | div => '/'

def ofChar? : Char → Option Operator
  | '+' => some add
  | '-' => some sub
  | '*' => some mul
  | '/' => some div
  | _ => none

def text (op : Operator) : String := String.singleton op.symbol

/-- The operator that a text is, when it is exactly one symbol. -/
def ofText? (text : String) : Option Operator :=
  match text.toList with
  | [c] => ofChar? c
  | _ => none

def precedence : Operator → Nat
  | add | sub => 1
  | mul | div => 2

/-- Every operator associates to the left. -/
def associativity (_ : Operator) : Associativity := .left

/--
The operator at work on its left and right operand. A division looks at its
divisor first: any zero is refused, also under a zero or a NaN.
-/
def apply (op : Operator) (left right : Binary64) : Except EvalError Binary64 :=
  match op with
  | add => .ok (left + right)
  | sub => .ok (left - right)
  | mul => .ok (left * right)
  | div => if right.isZero then .error .divisionByZero else .ok (left / right)

theorem precedence_le_two (op : Operator) : op.precedence ≤ 2 := by
  cases op <;> decide

theorem not_isDigit_symbol (op : Operator) : ¬op.symbol.isDigit := by
  cases op <;> decide

theorem ofChar?_eq_some_iff {c : Char} {op : Operator} : ofChar? c = some op ↔ c = op.symbol := by
  refine ⟨?_, ?_⟩
  · intro h
    unfold ofChar? at h
    split at h <;> simp_all <;> subst h <;> rfl
  · intro h
    rw [h]
    cases op <;> rfl

theorem ofText?_eq_some_iff {text : String} {op : Operator} :
    ofText? text = some op ↔ text = op.text := by
  refine ⟨?_, ?_⟩
  · intro h
    unfold ofText? at h
    split at h
    · next c hc =>
      rw [ofChar?_eq_some_iff] at h
      subst h
      exact String.toList_inj.mp (by rw [hc, Operator.text, String.toList_singleton])
    · -- only a single character is an operator
      simp at h
  · intro h
    rw [h]
    cases op <;> rfl

end Operator

end DeskCalculator
