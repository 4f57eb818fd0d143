import DeskCalculator.Binary64.Text
import DeskCalculator.Literal
import DeskCalculator.Operator

/-!
# Tokens

A typed text is a number, a name or an operator, and never two of them: a number
has a digit or a point after its sign, a name starts with a letter or an
underscore, and an operator is a bare symbol. The kinds are tried in that order,
and a text of none of them is not a token.

A token prints as its kind requires: a number in full with its fewest digits, so
`007` becomes `7` and `1e3` becomes `1000`; a name and an operator as they are.
-/

namespace DeskCalculator

/-- What an operator works on: a number, or a name that stands for one. -/
inductive Operand where
  | number (value : Binary64)
  | name (text : String)
  deriving DecidableEq, Repr

def Operand.text : Operand → String
  | number value => value.text
  | name text => text

inductive Token where
  | operand (o : Operand)
  | operator (op : Operator)
  deriving DecidableEq, Repr

namespace Token

/-- A character that may start a name. -/
def isNameStart (c : Char) : Bool := c.isAlpha || c == '_'

/-- A character that may go on a name. -/
def isNamePart (c : Char) : Bool := c.isAlphanum || c == '_'

/-- A letter or underscore, then letters, digits and underscores, all of them ASCII. -/
def isNameShape : List Char → Bool
  | [] => false
  | first :: rest => isNameStart first && rest.all isNamePart

/-- A text that reads as a number. -/
def isNumeric (text : String) : Bool := (readNumber? text).isSome

/-- A text of the shape of a name that does not read as a number. -/
def isName (text : String) : Bool := isNameShape text.toList && !isNumeric text

def isOperandText (text : String) : Bool := isNumeric text || isName text

def isOperatorText (text : String) : Bool := (Operator.ofText? text).isSome

/-- The token that a text is. -/
def classify? (text : String) : Option Token :=
  if text = "" then none
  else match readNumber? text with
    | some value => some (operand (.number value))
    | none =>
      if isName text then some (operand (.name text))
      else (Operator.ofText? text).map operator

/-- The tokens of a row of texts; what is no token is dropped. -/
def classifyAll (texts : List String) : List Token := texts.filterMap classify?

def isOperand : Token → Bool
  | .operand _ => true
  | .operator _ => false

def text : Token → String
  | .operand o => o.text
  | .operator op => op.text

/-- A row of tokens in one line, with a space between two. -/
def line (tokens : List Token) : String := " ".intercalate (tokens.map text)

theorem isOperandText_text (op : Operator) : isOperandText op.text = false := by
  cases op <;> rfl

theorem isOperatorText_text (op : Operator) : isOperatorText op.text = true := by
  cases op <;> rfl

theorem classify?_text (op : Operator) : classify? op.text = some (operator op) := by
  cases op <;> rfl

/-- A token is a number, a name or an operator, and the first of these kinds that its text is. -/
theorem classify?_cases {text : String} {token : Token} (h : classify? text = some token) :
    (∃ value, readNumber? text = some value ∧ token = .operand (.number value))
      ∨ (readNumber? text = none ∧ isName text ∧ token = .operand (.name text))
      ∨ (readNumber? text = none ∧ ∃ op : Operator, text = op.text ∧ token = .operator op) := by
  unfold classify? at h
  -- a number goes before a name, and a name before an operator
  split at h
  · exact absurd h (by simp)
  · split at h
    · rename_i value hvalue
      exact Or.inl ⟨value, hvalue, (Option.some.inj h).symm⟩
    · rename_i hnone
      split at h
      · rename_i hname
        exact Or.inr (Or.inl ⟨hnone, hname, (Option.some.inj h).symm⟩)
      · obtain ⟨op, hop, htoken⟩ := Option.map_eq_some_iff.mp h
        exact Or.inr (Or.inr ⟨hnone, op, Operator.ofText?_eq_some_iff.mp hop, htoken.symm⟩)

end Token

end DeskCalculator
