import DeskCalculator.Token

/-!
# Postfix order

A typed row has its operators between the operands; in postfix order an operator
stands after its two operands, and precedence and parentheses are not needed any
more. The row is rearranged in one pass. Operands go out at once, and operators
wait: before an operator starts to wait, the waiting ones that bind at least as
tightly go out, latest first. At the end all that wait go out.

Rearranging never fails. It does not look whether operators and operands
alternate; a row in which they do not keeps its fault, and fails when it is
evaluated.
-/

namespace DeskCalculator.Postfix

/-- A waiting operator that goes out before the next one starts to wait. -/
def goesBefore (next waiting : Operator) : Bool :=
  match next.associativity with
  | .left => next.precedence ≤ waiting.precedence
  | .right => next.precedence < waiting.precedence

/-- What goes out when a token is read, given the operators that wait, latest first. -/
def release (waiting : List Operator) : Token → List Token
  | .operator op => (waiting.takeWhile (goesBefore op)).map .operator
  | .operand o => [.operand o]

/-- The operators that wait after a token is read. -/
def wait (waiting : List Operator) : Token → List Operator
  | .operator op => op :: waiting.dropWhile (goesBefore op)
  | .operand _ => waiting

/-- Rearranges the rest of a row while some operators are waiting. -/
def arrange (waiting : List Operator) : List Token → List Token
  | [] => waiting.map .operator
  | token :: rest => release waiting token ++ arrange (wait waiting token) rest

/-- A row lets a waiting operator out at once: it ends, or its operator binds no tighter. -/
def LetsOut (waiting : Operator) : List Token → Prop
  | [] => True
  | .operand _ :: _ => False
  | .operator next :: _ => next.precedence ≤ waiting.precedence

theorem goesBefore_iff {next waiting : Operator} :
    goesBefore next waiting = true ↔ next.precedence ≤ waiting.precedence := by
  simp [goesBefore, Operator.associativity]

theorem LetsOut.mono {op op' : Operator} {row : List Token} (h : LetsOut op row)
    (hle : op.precedence ≤ op'.precedence) : LetsOut op' row := by
  cases row with
  | nil => trivial
  | cons token rest =>
      cases token with
      | operand o => exact absurd h id
      | operator next => exact Nat.le_trans h hle

/-- The latest waiting operator goes out first, and the rest of the row is rearranged without it. -/
theorem arrange_of_letsOut {op : Operator} {row : List Token} (h : LetsOut op row)
    (waiting : List Operator) :
    arrange (op :: waiting) row = .operator op :: arrange waiting row := by
  cases row with
  | nil => rfl
  | cons token rest =>
      cases token with
      | operand o => exact absurd h id
      | operator next =>
          have hgoes : goesBefore next op = true := goesBefore_iff.mpr h
          rw [arrange, release, wait, List.takeWhile_cons_of_pos hgoes,
            List.dropWhile_cons_of_pos hgoes]
          rfl

/-- An operator that binds tighter than all that wait lets none of them out. -/
theorem arrange_of_tighter {op : Operator} {waiting : List Operator}
    (h : ∀ w ∈ waiting, w.precedence < op.precedence) (rest : List Token) :
    arrange waiting (.operator op :: rest) = arrange (op :: waiting) rest := by
  cases waiting with
  | nil => rfl
  | cons w waiting =>
      have hstays : ¬goesBefore op w = true := by
        rw [goesBefore_iff]
        exact Nat.not_le.mpr (h w List.mem_cons_self)
      rw [arrange, release, wait, List.takeWhile_cons_of_neg hstays,
        List.dropWhile_cons_of_neg hstays]
      rfl

def ofRow (row : List Token) : List Token := arrange [] row

/-- The postfix order of a row of texts, as texts; what is no token is dropped. -/
def ofTexts (texts : List String) : List String :=
  (ofRow (Token.classifyAll texts)).map Token.text

end DeskCalculator.Postfix
