import DeskCalculator.Calculator
import DeskCalculator.Keyboard

/-!
# The window

The window shows the calculator and passes on what is done to it: clicks on the
pad, on the committed texts, on the field of the variable and on the fold of the
explanation, and frames of keyboard events.

Beside the calculator it knows two things: whether the explanation is unfolded,
and whether the field of the variable has the focus. While the field has the
focus it takes all typed texts, and no key of the calculator is pressed from the
keyboard. A click on anything but the field takes the focus away from it.
-/

namespace DeskCalculator

structure Button where
  label : String
  key : Key
  deriving DecidableEq, Repr

/-- The pad, row by row. -/
def pad : List (List Button) :=
  let digit (c : Char) : Button := ⟨String.singleton c, .digit c⟩
  let operator (op : Operator) : Button := ⟨op.text, .operator op⟩
  [ [digit '7', digit '8', digit '9', operator .div],
    [digit '4', digit '5', digit '6', operator .mul],
    [digit '1', digit '2', digit '3', operator .sub],
    [digit '0', ⟨".", .decimal⟩, ⟨"X", .insertVariable⟩, operator .add],
    [⟨"AC", .clear⟩, ⟨"DEL", .delete⟩, ⟨"=", .equals⟩] ]

/-- The calculator in its window. -/
structure Window where
  calculator : Calculator := {}
  explanationOpen : Bool := false
  fieldFocused : Bool := false
  deriving DecidableEq, Repr

namespace Window

def heading : String := "Calculatrice RPN"

/-- The label of the fold of the explanation. -/
def foldLabel : String := "Démarche"

/-- Something done to the window. -/
inductive Action where
  | button (key : Key)
  /-- A click on the fold of the explanation. -/
  | fold
  /-- A click on a committed text. -/
  | token (index : Nat)
  /-- A click on the field of the variable. -/
  | field
  /-- A frame of keyboard events. -/
  | frame (events : List Keyboard.Event)
  deriving DecidableEq, Repr

def Action.ofLabel? (label : String) : Option Action :=
  if label = foldLabel then some .fold
  else (pad.flatten.find? (·.label == label)).map (.button ·.key)

/-- What the field takes of a typed text: all of it, unless it is just the end of a line. -/
def fieldInput (text : String) : String :=
  if text = "\n" ∨ text = "\r" then "" else text

def typeInField (frame : List Keyboard.Event) (field : VariableField) : VariableField :=
  frame.foldl (fun field event => field.append (fieldInput event.typedText)) field

/-- The window after an action, and what the journal says of it. -/
def act (w : Window) : Action → Window × List Journal.Entry
  | .button key =>
    ({ w with calculator := w.calculator.press key, fieldFocused := false },
      w.calculator.entries key)
  | .fold => ({ w with explanationOpen := !w.explanationOpen, fieldFocused := false }, [])
  | .token index =>
    if index < w.calculator.session.tokens.length then
      let session := w.calculator.session.remove index
      ({ w with calculator := { w.calculator with session }, fieldFocused := false },
        [.removed index])
    else (w, [])
  | .field => ({ w with fieldFocused := true }, [])
  | .frame events =>
    if w.fieldFocused then
      let field := typeInField events w.calculator.field
      ({ w with calculator := { w.calculator with field } }, [])
    else
      let keys := Keyboard.frameKeys events
      ({ w with calculator := w.calculator.pressAll keys }, w.calculator.shortcutEntries keys)

def shownTokens (w : Window) : List String :=
  if w.calculator.session.tokens = [] then ["(vide)"] else w.calculator.session.tokens

/-- The text of the field, or the hint that stands in an empty one. -/
def shownField (w : Window) : String :=
  if w.calculator.field.text = "" then "0" else w.calculator.field.text

def shownExplanation (w : Window) : List String :=
  if w.explanationOpen then
    ["Jetons :", w.calculator.session.explanation.typed,
      "RPN :", w.calculator.session.explanation.ordered]
  else []

/-- All the texts in the window, from top to bottom; an empty text is not shown. -/
def texts (w : Window) : List String :=
  let all :=
    [heading] ++ w.shownTokens ++ [w.calculator.session.display, w.calculator.message]
      ++ ["X =", w.shownField] ++ pad.flatten.map Button.label ++ [foldLabel]
      ++ w.shownExplanation
  all.filter (· ≠ "")

end Window

end DeskCalculator
