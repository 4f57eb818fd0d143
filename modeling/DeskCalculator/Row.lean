import DeskCalculator.Evaluation

/-!
# Well-formed rows, and evaluating them while reading

A row of tokens is well formed when operands and operators alternate and it
starts and ends with an operand. A `Row` is exactly such a row: a first operand,
and then any number of operators, each with the operand after it.

With two levels of precedence and no parentheses such a row needs no stack. It is
enough to keep two values while reading from left to right: the *term*, a running
product or quotient, and the *sum* of the terms before it, which waits with an
operator for the term to end. This is how one works the row out by hand, and
`Row.evaluate` does just that. It says what a row means without any word of
postfix order.
-/

namespace DeskCalculator

/-- An operand, and then operators each with an operand after it. -/
structure Row where
  first : Operand
  rest : List (Operator × Operand)
  deriving DecidableEq, Repr

/-- A value that is being worked out from left to right. -/
structure Running where
  /-- What came before the term, and the operator that joins the two. -/
  sum : Option (Binary64 × Operator)
  /-- The running product or quotient. -/
  term : Binary64
  deriving DecidableEq, Repr

namespace Running

/-- The value when the term has ended: the sum joined with the term. -/
def close (running : Running) : Except EvalError Binary64 :=
  match running.sum with
  | none => .ok running.term
  | some (sum, op) => op.apply sum running.term

/--
Reads an operator and its right operand. Multiplication and division go into the
term at once; addition and subtraction end it, and the operand starts another.
-/
def read (resolve : Resolver) (running : Running) : Operator × Operand → Asking Running
  | (op, operand) =>
    match op with
    | .mul | .div => do
      let right ← resolve.valueOf operand
      let term ← op.apply running.term right
      pure { running with term }
    | .add | .sub => do
      let sum ← running.close
      let term ← resolve.valueOf operand
      pure ⟨some (sum, op), term⟩

end Running

namespace Row

def pairTokens : Operator × Operand → List Token
  | (op, operand) => [.operator op, .operand operand]

/-- The tokens of a row in the order in which they are typed. -/
def tokens (row : Row) : List Token := .operand row.first :: row.rest.flatMap pairTokens

/-- Operators and operands in turn, as far as a row goes on after its first operand. -/
def pairs? : List Token → Option (List (Operator × Operand))
  | [] => some []
  | .operator op :: .operand o :: more => (pairs? more).map ((op, o) :: ·)
  | _ => none

/-- The row that some tokens are, when they are a well-formed one. -/
def ofTokens? : List Token → Option Row
  | .operand first :: more => (pairs? more).map (⟨first, ·⟩)
  | _ => none

/-- The value of a row, worked out from left to right. -/
def evaluate (resolve : Resolver) (row : Row) : Asking Binary64 := do
  let term ← resolve.valueOf row.first
  let running ← row.rest.foldlM (Running.read resolve) ⟨none, term⟩
  running.close

theorem pairs?_eq_some_iff {tokens : List Token} {pairs : List (Operator × Operand)} :
    pairs? tokens = some pairs ↔ tokens = pairs.flatMap pairTokens := by
  fun_induction pairs? tokens generalizing pairs with
  | case1 =>
    cases pairs with
    | nil => simp
    | cons pair rest => simp [pairTokens]
  | case2 op o more ih =>
    cases pairs with
    | nil => simp
    | cons pair rest =>
      obtain ⟨op', o'⟩ := pair
      simp only [Option.map_eq_some_iff, List.cons.injEq, Prod.mk.injEq, List.flatMap_cons,
        pairTokens, List.cons_append, List.nil_append, Token.operator.injEq, Token.operand.injEq]
      refine ⟨?_, ?_⟩
      · intro h
        obtain ⟨pairs, hmore, ⟨rfl, rfl⟩, rfl⟩ := h
        exact ⟨rfl, rfl, ih.mp hmore⟩
      · intro h
        obtain ⟨rfl, rfl, hmore⟩ := h
        exact ⟨rest, ih.mpr hmore, ⟨rfl, rfl⟩, rfl⟩
  | case3 tokens hnil hpair =>
    cases pairs with
    | nil => simpa using hnil
    | cons pair rest =>
      -- no operator with an operand is in front, as it would be with a pair
      simp only [reduceCtorEq, List.flatMap_cons, false_iff]
      exact fun h => hpair pair.1 pair.2 (rest.flatMap pairTokens) h

/-- Reading a row accepts exactly the tokens of rows. -/
theorem ofTokens?_eq_some_iff {tokens : List Token} {row : Row} :
    ofTokens? tokens = some row ↔ tokens = row.tokens := by
  obtain ⟨first, rest⟩ := row
  unfold ofTokens?
  split
  · next first' more =>
    simp only [Option.map_eq_some_iff, pairs?_eq_some_iff, Row.mk.injEq, Row.tokens,
      List.cons.injEq, Token.operand.injEq]
    refine ⟨?_, ?_⟩
    · intro h
      obtain ⟨_, hmore, rfl, rfl⟩ := h
      exact ⟨rfl, hmore⟩
    · intro h
      obtain ⟨rfl, hmore⟩ := h
      exact ⟨_, hmore, rfl, rfl⟩
  · -- without an operand in front there is no row
    next h =>
    simp only [reduceCtorEq, false_iff]
    exact fun e => h _ _ e

end Row

end DeskCalculator
