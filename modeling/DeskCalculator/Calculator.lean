import DeskCalculator.Journal
import DeskCalculator.Session

/-!
# The calculator

The calculator is an entry session together with the field of the variable. A key
acts on one of the two and leaves the other alone; only `equals` looks at both,
because the field says what every name stands for.
-/

namespace DeskCalculator

/-- An entry session and the field of the variable. -/
structure Calculator where
  session : Session := {}
  field : VariableField := {}
  deriving DecidableEq, Repr

namespace Calculator

/-- Evaluates the expression, every name standing for the value of the field. -/
def equals (desk : Calculator) : Session.Reply := desk.session.equals desk.field.resolver

def press (desk : Calculator) : Key → Calculator
  | .digit c => { desk with session := desk.session.digit c }
  | .decimal => { desk with session := desk.session.decimal }
  | .operator op => { desk with session := desk.session.operator op }
  | .insertVariable => { desk with session := desk.session.insert VariableField.variableName }
  | .equals => { desk with session := desk.equals.session }
  | .delete => { desk with session := desk.session.delete }
  | .clear => { desk with session := {} }
  | .fieldDigit c => { desk with field := desk.field.digit c }
  | .fieldDelete => { desk with field := desk.field.delete }

/-- The calculator after some keys, pressed one after another. -/
def pressAll (desk : Calculator) (keys : List Key) : Calculator := keys.foldl press desk

theorem pressAll_append (desk : Calculator) (before after : List Key) :
    desk.pressAll (before ++ after) = (desk.pressAll before).pressAll after :=
  List.foldl_append

/-- The sentence about the error, empty when there is none. -/
def message (desk : Calculator) : String :=
  match desk.session.error with
  | some error => error.message
  | none => ""

/-- What the journal says of an evaluation; a repeated one is not worth an entry. -/
def equalsEntries (desk : Calculator) : List Journal.Entry :=
  if desk.session.repeated?.isSome then []
  else
    let reply := desk.equals
    match reply.outcome.result with
    | .ok value => [.evaluated reply.session.explanation value]
    | .error error => [.failed desk.session.commit.tokens error]

def entries (desk : Calculator) : Key → List Journal.Entry
  | .equals => desk.equalsEntries
  | _ => []

/-- What the journal says of keys that the keyboard presses one after another. -/
def shortcutEntries (desk : Calculator) : List Key → List Journal.Entry
  | [] => []
  | key :: rest => .shortcut key :: desk.entries key ++ (desk.press key).shortcutEntries rest

end Calculator

end DeskCalculator
