import DeskCalculator.Display
import DeskCalculator.Postfix

/-!
# Evaluation

A row in postfix order is evaluated on a stack of values: a number is put on the
stack, a name is put on it by the value it stands for, and an operator takes two
values off and puts its result back. Exactly one value may be left at the end.
The first failure ends the evaluation.

What a name stands for is asked of a `Resolver`. It is told which names were
asked before, so its answers may change from one question to the next. The names
asked so far are kept all through an evaluation and are still known when it has
failed; they are part of its `Outcome`.
-/

namespace DeskCalculator

/-- Says what a name stands for, given the names that were asked before it. -/
abbrev Resolver := List String → String → Except EvalError Binary64

/-- A computation that may fail and that remembers which names were asked. -/
abbrev Asking := ExceptT EvalError (StateM (List String))

/-- The end of a computation: its result, and the names that were asked on the way. -/
structure Outcome (α : Type) where
  result : Except EvalError α
  asked : List String

/-- Runs a computation before which nothing was asked. -/
def Asking.outcome {α : Type} (computation : Asking α) : Outcome α :=
  let (result, asked) := computation.run.run []
  ⟨result, asked⟩

/-- A failure of the first computation is the end; its value is what the next one goes on with. -/
theorem Asking.run_bind {α β : Type} (first : Asking α) (next : α → Asking β)
    (asked : List String) :
    (first >>= next).run.run asked =
      match first.run.run asked with
      | (.ok value, asked) => (next value).run.run asked
      | (.error error, asked) => (.error error, asked) := by
  rw [ExceptT.run_bind, StateT.run_bind]
  cases first.run.run asked with
  | mk result asked => cases result <;> rfl

/-- Asks what a name stands for. The answer NaN is not a number, and so a failure. -/
def Resolver.ask (resolve : Resolver) (name : String) : Asking Binary64 := do
  let before ← get
  set (before ++ [name])
  let value ← resolve before name
  if value.isNaN then throw (.invalidVariable name) else pure value

/-- The value of an operand. -/
def Resolver.valueOf (resolve : Resolver) : Operand → Asking Binary64
  | .number value => pure value
  | .name name => resolve.ask name

namespace Evaluation

/-- The effect of one token on the stack, whose top is the head of the list. -/
def step (resolve : Resolver) (stack : List Binary64) : Token → Asking (List Binary64)
  | .operand o => do
    let value ← resolve.valueOf o
    pure (value :: stack)
  | .operator op =>
    match stack with
    | right :: left :: rest => do
      let value ← op.apply left right
      pure (value :: rest)
    | _ => throw .invalidExpression

/-- The value of an evaluation that has come to the end of its row. -/
def finish : List Binary64 → Asking Binary64
  | [value] => pure value
  | _ => throw .invalidExpression

/-- The value of a row in postfix order. -/
def ofPostfix (resolve : Resolver) (row : List Token) : Asking Binary64 := do
  let stack ← row.foldlM (step resolve) []
  finish stack

/-- The effect of one text on the stack. An empty text has none. -/
def stepText (resolve : Resolver) (stack : List Binary64) (text : String) :
    Asking (List Binary64) :=
  if text = "" then pure stack
  else match Token.classify? text with
    | some token => step resolve stack token
    | none => throw (.unknownToken text)

/-- The value of a row of texts in postfix order; a text is classified when it is reached. -/
def ofPostfixTexts (resolve : Resolver) (texts : List String) : Asking Binary64 := do
  let stack ← texts.foldlM (stepText resolve) []
  finish stack

end Evaluation

/-- How a result came about: the tokens as they were typed, and in postfix order. -/
structure Explanation where
  typed : String := ""
  ordered : String := ""
  deriving DecidableEq, Repr

/-- The tidied value of a row of typed texts, with its explanation. -/
def evaluate (resolve : Resolver) (texts : List String) : Asking (Binary64 × Explanation) := do
  let row := Token.classifyAll texts
  let ordered := Postfix.ofRow row
  let value ← Evaluation.ofPostfix resolve ordered
  pure (Display.tidy value, ⟨Token.line row, Token.line ordered⟩)

/-- An evaluation tidies the value of the rearranged row and adds the explanation. -/
theorem outcome_evaluate (resolve : Resolver) (texts : List String) :
    (evaluate resolve texts).outcome =
      { result := (Evaluation.ofPostfix resolve
            (Postfix.ofRow (Token.classifyAll texts))).outcome.result.map fun raw =>
          (Display.tidy raw, ⟨Token.line (Token.classifyAll texts),
            Token.line (Postfix.ofRow (Token.classifyAll texts))⟩)
        asked := (Evaluation.ofPostfix resolve
          (Postfix.ofRow (Token.classifyAll texts))).outcome.asked } := by
  rw [Asking.outcome, Asking.outcome, evaluate, Asking.run_bind]
  cases (Evaluation.ofPostfix resolve (Postfix.ofRow (Token.classifyAll texts))).run.run [] with
  | mk result asked =>
      cases result with
      | ok raw => rfl
      | error error => rfl

end DeskCalculator
