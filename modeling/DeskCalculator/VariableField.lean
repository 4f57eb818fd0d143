import DeskCalculator.Evaluation
import DeskCalculator.Text.Editing

/-!
# The field of the variable X

The value of X is typed into a text field of its own. A blank field means zero, a
number means its value, and anything else is an error the moment a calculation
asks for it. The field can be edited freely; its digit and delete keys treat a
lone `0` as nothing typed.
-/

namespace DeskCalculator

structure VariableField where
  text : String := ""
  deriving DecidableEq, Repr

namespace VariableField

/-- The name that the variable key inserts. -/
def variableName : String := "X"

/-- The value of a field with the given text, for whatever name asks for it. -/
def valueOf (name text : String) : Except EvalError Binary64 :=
  if Text.trim text.toList = [] then .ok (.zero false)
  else match readNumber? text with
    | some value => .ok value
    | none => .error (.invalidVariable name)

/-- Every name stands for the value of the field. -/
def resolver (field : VariableField) : Resolver := fun _ name => valueOf name field.text

/-- Adds a character; nothing and a lone `0` are replaced by it. -/
def digit (c : Char) (field : VariableField) : VariableField :=
  ⟨if field.text = "" ∨ field.text = "0" then String.singleton c else field.text.push c⟩

/-- Takes off the last character; the last one of all leaves a `0`. -/
def delete (field : VariableField) : VariableField :=
  ⟨if field.text.length ≤ 1 then "0" else Text.dropLast field.text⟩

/-- Types a text at the end of the field. -/
def append (text : String) (field : VariableField) : VariableField := ⟨field.text ++ text⟩

end VariableField

end DeskCalculator
