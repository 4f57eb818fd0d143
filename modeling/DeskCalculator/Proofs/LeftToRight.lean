import DeskCalculator.Row

/-!
# Working a row out from left to right

`Row.evaluate` keeps a term and a sum and has no stack. The postfix machine has
two: the operators that wait while the row is rearranged, and the values. This
module relates the two, for a row of any length.

When an operand has been read, the machine is at most one step behind. A
multiplication or a division that waits is always on top, with both its operands
on the stack, and whatever comes next lets it out first; `Row.evaluate` did it at
once. With that step made up for (`machine_factor`), the machine stands where the
two values stand: the term and below it the sum on the stack, and the operator of
the sum, if there is one, waiting. From there the next operator has the same
effect on both, and so has the end of the row.
-/

namespace DeskCalculator

open Postfix Evaluation

namespace Running

/-- What lies below the term: the sum, if there is one. -/
def below (running : Running) : List Binary64 := (running.sum.map Prod.fst).toList

def stack (running : Running) : List Binary64 := running.term :: running.below

def waiting (running : Running) : List Operator := (running.sum.map Prod.snd).toList

/-- The sum waits with an addition or a subtraction. -/
def Additive (running : Running) : Prop := ∀ op ∈ running.waiting, op.precedence = 1

end Running

/-- The machine at the rest of a row, with some operators waiting and some values on the stack. -/
def machine (resolve : Resolver) (waiting : List Operator) (stack : List Binary64)
    (row : List Token) : Asking Binary64 := do
  let stack ← (arrange waiting row).foldlM (step resolve) stack
  finish stack

/-! ## What the machine does next -/

section Machine

variable (resolve : Resolver)

theorem machine_operand (waiting : List Operator) (stack : List Binary64) (o : Operand)
    (rest : List Token) :
    machine resolve waiting stack (.operand o :: rest) = (do
      let value ← resolve.valueOf o
      machine resolve waiting (value :: stack) rest) := by
  simp only [machine, arrange, release, wait, List.cons_append, List.nil_append, List.foldlM_cons,
    step, bind_assoc, pure_bind]

theorem machine_of_letsOut {op : Operator} {row : List Token} (h : LetsOut op row)
    (waiting : List Operator) (left right : Binary64) (stack : List Binary64) :
    machine resolve (op :: waiting) (right :: left :: stack) row = (do
      let value ← op.apply left right
      machine resolve waiting (value :: stack) row) := by
  simp only [machine, arrange_of_letsOut h, List.foldlM_cons, step, bind_assoc, pure_bind]

theorem machine_of_tighter {op : Operator} {waiting : List Operator}
    (h : ∀ w ∈ waiting, w.precedence < op.precedence) (stack : List Binary64)
    (rest : List Token) :
    machine resolve waiting stack (.operator op :: rest)
      = machine resolve (op :: waiting) stack rest := by
  rw [machine, machine, arrange_of_tighter h]

/-- Where the row lets the operator of the sum out, the sum is joined with the term first. -/
theorem machine_close (running : Running) {row : List Token}
    (h : ∀ op ∈ running.waiting, LetsOut op row) :
    machine resolve running.waiting running.stack row = (do
      let value ← running.close
      machine resolve [] [value] row) := by
  match running with
  | ⟨none, term⟩ =>
      have hclose : (liftM (Running.close ⟨none, term⟩) : Asking Binary64) = pure term := rfl
      rw [hclose, pure_bind]
      rfl
  | ⟨some (sum, op), term⟩ =>
      -- the operator that waits has both operands on the stack
      have hop : LetsOut op row := h op List.mem_cons_self
      exact machine_of_letsOut resolve hop [] sum term []

theorem machine_nil (running : Running) :
    machine resolve running.waiting running.stack [] = running.close := by
  have hends : ∀ op ∈ running.waiting, LetsOut op [] := fun _ _ => trivial
  rw [machine_close resolve running hends]
  simp only [machine, arrange, List.map_nil, List.foldlM_nil, pure_bind, finish, bind_pure]

/--
A multiplication or a division waits until its right operand is read, and is let
out by whatever comes after it.
-/
theorem machine_factor {op : Operator} (hop : op.precedence = 2) {running : Running}
    (h : running.Additive) (o : Operand) (pairs : List (Operator × Operand)) :
    machine resolve running.waiting running.stack
        (.operator op :: .operand o :: pairs.flatMap Row.pairTokens) = (do
      let right ← resolve.valueOf o
      let term ← op.apply running.term right
      machine resolve running.waiting (term :: running.below) (pairs.flatMap Row.pairTokens)) := by
  -- what waits with the sum stays below, and whatever comes next lets `op` out
  have htighter : ∀ w ∈ running.waiting, w.precedence < op.precedence := by
    intro w hw
    rw [h w hw, hop]
    exact Nat.lt_succ_self 1
  have hout : LetsOut op (pairs.flatMap Row.pairTokens) := by
    cases pairs with
    | nil => trivial
    | cons pair pairs =>
        show pair.1.precedence ≤ op.precedence
        rw [hop]
        exact Operator.precedence_le_two pair.1
  rw [machine_of_tighter resolve htighter, machine_operand]
  simp only [Running.stack, machine_of_letsOut resolve hout]

/-- An addition or a subtraction ends the term and waits for the next one. -/
theorem machine_term {op : Operator} (hop : op.precedence = 1) {running : Running}
    (h : running.Additive) (o : Operand) (rest : List Token) :
    machine resolve running.waiting running.stack (.operator op :: .operand o :: rest) = (do
      let sum ← running.close
      let term ← resolve.valueOf o
      machine resolve [op] [term, sum] rest) := by
  have hout : ∀ w ∈ running.waiting, LetsOut w (.operator op :: .operand o :: rest) := by
    intro w hw
    exact Nat.le_of_eq (hop.trans (h w hw).symm)
  have htighter : ∀ w ∈ ([] : List Operator), w.precedence < op.precedence := nofun
  rw [machine_close resolve running hout]
  simp only [machine_of_tighter resolve htighter, machine_operand]

end Machine

/-! ## The machine and the two values -/

/-- One more operator and operand has the same effect on the machine as on the two values. -/
theorem machine_read (resolve : Resolver) {running : Running} (h : running.Additive)
    (pair : Operator × Operand) (pairs : List (Operator × Operand)) :
    machine resolve running.waiting running.stack ((pair :: pairs).flatMap Row.pairTokens) = (do
      let next ← running.read resolve pair
      machine resolve next.waiting next.stack (pairs.flatMap Row.pairTokens)) := by
  obtain ⟨op, o⟩ := pair
  have hrow : ((op, o) :: pairs).flatMap Row.pairTokens
      = .operator op :: .operand o :: pairs.flatMap Row.pairTokens := rfl
  rw [hrow]
  -- a factor goes into the term that is still open, a term closes it
  cases op with
  | mul =>
      rw [machine_factor resolve rfl h]
      simp only [Running.read, bind_assoc, pure_bind]
      rfl
  | div =>
      rw [machine_factor resolve rfl h]
      simp only [Running.read, bind_assoc, pure_bind]
      rfl
  | add =>
      rw [machine_term resolve rfl h]
      simp only [Running.read, bind_assoc, pure_bind]
      rfl
  | sub =>
      rw [machine_term resolve rfl h]
      simp only [Running.read, bind_assoc, pure_bind]
      rfl

/-- Reading on leaves nothing but additions and subtractions waiting with the sum. -/
theorem read_bind_congr (resolve : Resolver) {running : Running} (h : running.Additive)
    (pair : Operator × Operand) {next next' : Running → Asking Binary64}
    (heq : ∀ after : Running, after.Additive → next after = next' after) :
    running.read resolve pair >>= next = running.read resolve pair >>= next' := by
  obtain ⟨op, o⟩ := pair
  have hfactor : ∀ term, Running.Additive { running with term } := fun _ => h
  -- behind a term one operator waits, the one that was read
  have hterm : ∀ op sum term, op.precedence = 1 → Running.Additive ⟨some (sum, op), term⟩ := by
    intro op sum term hop w hw
    rcases List.mem_singleton.mp hw with rfl
    exact hop
  cases op with
  | mul => simp only [Running.read, bind_assoc, pure_bind, heq _ (hfactor _)]
  | div => simp only [Running.read, bind_assoc, pure_bind, heq _ (hfactor _)]
  | add => simp only [Running.read, bind_assoc, pure_bind, heq _ (hterm .add _ _ rfl)]
  | sub => simp only [Running.read, bind_assoc, pure_bind, heq _ (hterm .sub _ _ rfl)]

/-- **The machine is where the two values are**, however long the rest of the row is. -/
theorem machine_eq (resolve : Resolver) {running : Running} (h : running.Additive)
    (pairs : List (Operator × Operand)) :
    machine resolve running.waiting running.stack (pairs.flatMap Row.pairTokens) = (do
      let last ← pairs.foldlM (Running.read resolve) running
      last.close) := by
  induction pairs generalizing running with
  | nil =>
      rw [List.foldlM_nil, pure_bind]
      exact machine_nil resolve running
  | cons pair pairs ih =>
      rw [machine_read resolve h, List.foldlM_cons, bind_assoc]
      exact read_bind_congr resolve h pair fun _ hafter => ih hafter

/--
**Rearranging a row and evaluating it on a stack is working it out from left to
right.**

The two are the same computation: the same double or the same failure, and the
same names asked in the same order, for every resolver.
-/
theorem ofPostfix_ofRow_tokens (resolve : Resolver) (row : Row) :
    ofPostfix resolve (ofRow row.tokens) = row.evaluate resolve := by
  have hnone (term : Binary64) : Running.Additive ⟨none, term⟩ := fun _ hop => nomatch hop
  have hrun (term : Binary64) := machine_eq resolve (hnone term) row.rest
  show machine resolve [] [] row.tokens = row.evaluate resolve
  rw [Row.tokens, machine_operand]
  exact bind_congr hrun

end DeskCalculator
