import DeskCalculator.Evaluation
import DeskCalculator.VariableField

/-!
# The entry session

A session holds the expression while it is typed: the texts that are committed,
and the pending text, which is still being edited. A pending `0` stands for
nothing typed yet.

    idle ──▶ entry ──▶ evaluated ──▶ entry …

Every entry leads to the phase `entry` and takes away a displayed error. After a
successful `equals` the result is the pending text: an operator goes on with it
as its left operand, while a digit, a point or a name starts anew. A failed
`equals` puts the session back to its start, with only the error kept.

`lastValue` and `explanation` outlive the phase in which they were computed;
what the session does depends on `lastValue` only in the phase `evaluated`, and
never on the explanation.
-/

namespace DeskCalculator

/-- Where a session stands between two results. -/
inductive Phase where
  | idle
  | entry
  | evaluated
  deriving DecidableEq, Repr

/-- An expression in the course of being typed, and what became of the last one. -/
structure Session where
  tokens : List String := []
  /-- The text that is still being edited. -/
  pending : String := "0"
  phase : Phase := .idle
  /-- The value that a repeated `equals` gives again. -/
  lastValue : Option Binary64 := none
  error : Option EvalError := none
  explanation : Explanation := {}
  deriving DecidableEq, Repr

/-- What `equals` leaves behind: the session after it, and what it answered. -/
structure Session.Reply where
  session : Session
  outcome : Outcome Binary64

namespace Session

def nothingTyped : String := "0"

/-- Shown in place of the pending text when there is an error. -/
def errorSign : String := "Erreur"

def display (s : Session) : String :=
  if s.error.isSome then errorSign else s.pending

def beginEntry (s : Session) : Session := { s with error := none, phase := .entry }

/-- The start of a new expression with the given pending text. -/
def restart (pending : String) (s : Session) : Session :=
  { s.beginEntry with tokens := [], pending := pending }

def lastIs (property : String → Bool) (s : Session) : Bool := s.tokens.getLast?.any property

/--
Commits the pending text. A pending `0` is committed where an operand is due, at
the start and after an operator; after an operand it was not typed and is dropped.
-/
def commit (s : Session) : Session :=
  if s.pending = "" then s
  else if s.pending = nothingTyped then
    if s.lastIs Token.isOperandText then s else { s with tokens := s.tokens ++ [nothingTyped] }
  else { s with tokens := s.tokens ++ [s.pending], pending := nothingTyped }

def digit (c : Char) (s : Session) : Session :=
  if s.phase = .evaluated then s.restart (String.singleton c)
  else
    { s.beginEntry with
      pending := if s.pending = nothingTyped then String.singleton c else s.pending.push c }

/-- Types a decimal point, of which a pending text holds one at most. -/
def decimal (s : Session) : Session :=
  if s.phase = .evaluated then s.restart "0."
  else
    { s.beginEntry with
      pending := if s.pending.toList.contains '.' then s.pending else s.pending.push '.' }

/-- An operator was typed and nothing after it, so that another one takes its place. -/
def awaitsOperand (s : Session) : Bool :=
  s.lastIs Token.isOperatorText && s.pending == nothingTyped

/-- Types an operator: after a result, after an operator, or after an operand. -/
def operator (op : Operator) (s : Session) : Session :=
  let before :=
    if s.phase = .evaluated then [s.pending]
    else if s.awaitsOperand then s.tokens.dropLast
    else s.commit.tokens
  { s.beginEntry with tokens := before ++ [op.text], pending := nothingTyped }

/-- Inserts a name as an operand of its own. -/
def insert (name : String) (s : Session) : Session :=
  if s.phase = .evaluated then s.restart name
  else
    let before := if s.pending = nothingTyped then s.tokens else s.commit.tokens
    { s.beginEntry with tokens := before ++ [name], pending := nothingTyped }

/-- Takes the last character off the pending text; after a result the expression goes too. -/
def delete (s : Session) : Session :=
  { s.beginEntry with
    tokens := if s.phase = .evaluated then [] else s.tokens
    pending := if 1 < s.pending.length then Text.dropLast s.pending else nothingTyped }

/-- Takes a committed text out of the row and back into the pending text. -/
def remove (index : Nat) (s : Session) : Session :=
  match s.tokens[index]? with
  | none => s
  | some token => { s.beginEntry with tokens := s.tokens.eraseIdx index, pending := token }

/-- The value that `equals` repeats, when the session stands at a result. -/
def repeated? (s : Session) : Option Binary64 :=
  if s.phase = .evaluated then s.lastValue else none

def succeed (value : Binary64) (explanation : Explanation) (s : Session) : Session :=
  { s with
    pending := Display.text value
    phase := .evaluated
    lastValue := some value
    error := none
    explanation := explanation }

/-- The session that shows an error and nothing else. -/
def fail (error : EvalError) : Session := { error := some error }

/-- Commits the pending text and evaluates; at a result, gives the result again. -/
def equals (resolve : Resolver) (s : Session) : Reply :=
  match s.repeated? with
  | some value => ⟨s, .ok value, []⟩
  | none =>
    let s := s.commit
    let ⟨result, asked⟩ := (evaluate resolve s.tokens).outcome
    match result with
    | .ok (value, explanation) => ⟨s.succeed value explanation, .ok value, asked⟩
    | .error error => ⟨fail error, .error error, asked⟩

inductive Action where
  | digit (c : Char)
  | decimal
  | operator (op : Operator)
  | insert (name : String)
  | clear
  | delete
  | remove (index : Nat)
  | equals (resolve : Resolver)

def perform (s : Session) : Action → Session
  | .digit c => s.digit c
  | .decimal => s.decimal
  | .operator op => s.operator op
  | .insert name => s.insert name
  | .clear => {}
  | .delete => s.delete
  | .remove index => s.remove index
  | .equals resolve => (s.equals resolve).session

/-- The session after some actions, one after another. -/
def performAll (s : Session) (actions : List Action) : Session := actions.foldl perform s

theorem performAll_append (s : Session) (actions more : List Action) :
    s.performAll (actions ++ more) = (s.performAll actions).performAll more :=
  List.foldl_append

theorem performAll_cons (s : Session) (action : Action) (more : List Action) :
    s.performAll (action :: more) = (s.perform action).performAll more := rfl

end Session

end DeskCalculator
