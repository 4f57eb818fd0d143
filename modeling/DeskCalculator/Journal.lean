import DeskCalculator.Evaluation
import DeskCalculator.Key
import DeskCalculator.Text.Quoted

/-!
# The journal

The calculator keeps a journal of what it evaluated, what failed, and what the
window did on its own account. An entry is data, and `Journal.Entry.line` is how
it is written: its level, and a sentence.
-/

namespace DeskCalculator

def Operator.journalName : Operator → String
  | add => "Plus"
  | sub => "Moins"
  | mul => "Fois"
  | div => "Divise"

/-- A key with the character it carries. -/
private def keyWithChar (name : String) (c : Char) : String :=
  name ++ "('" ++ String.singleton c ++ "')"

def Key.journalName : Key → String
  | digit c => keyWithChar "Chiffre" c
  | decimal => "Decimale"
  | operator op => "Op(" ++ op.journalName ++ ")"
  | insertVariable => "Variable"
  | equals => "Egal"
  | delete => "Retour"
  | clear => "EffacerTout"
  | fieldDigit c => keyWithChar "ChiffreX" c
  | fieldDelete => "RetourX"

namespace Journal

inductive Entry where
  | evaluated (explanation : Explanation) (value : Binary64)
  /-- The evaluation of the committed texts failed. -/
  | failed (tokens : List String) (error : EvalError)
  | shortcut (key : Key)
  /-- A committed text was clicked. -/
  | removed (index : Nat)
  deriving DecidableEq, Repr

/-- The line that tells of an entry. -/
def Entry.line : Entry → String
  | evaluated explanation value =>
    "DEBUG évaluation: " ++ explanation.typed ++ " => " ++ explanation.ordered ++ " => " ++ value.text
  | failed tokens error =>
    "WARN évaluation échouée (" ++ Text.quotedList tokens ++ "): " ++ error.message
  | shortcut key => "TRACE raccourci: " ++ key.journalName
  | removed index => "TRACE retrait du jeton " ++ toString index

end Journal

end DeskCalculator
