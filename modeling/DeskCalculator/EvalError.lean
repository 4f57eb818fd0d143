/-!
# How an evaluation can fail

Ordering tokens and tidying results always succeed; every failure of the
calculator is a failure to evaluate, and it has one of four causes.
-/

namespace DeskCalculator

/-- The cause of a failed evaluation. -/
inductive EvalError where
  /-- An operator lacks an operand, or the row does not come down to one value. -/
  | invalidExpression
  /-- A text that is no number, no name and no operator. -/
  | unknownToken (text : String)
  /-- The right operand of a division is exactly zero. -/
  | divisionByZero
  /-- What a name stands for is not a number. -/
  | invalidVariable (name : String)
  deriving DecidableEq, Repr

/-- The sentence that tells the cause to the user. -/
def EvalError.message : EvalError → String
  | invalidExpression => "expression invalide"
  | unknownToken text => "jeton inconnu: '" ++ text ++ "'"
  | divisionByZero => "division par zéro"
  | invalidVariable name => "variable invalide: '" ++ name ++ "'"

end DeskCalculator
