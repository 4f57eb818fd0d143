import DeskCalculator.Proofs.Grouping
import DeskCalculator.Proofs.Rearranging

/-!
# Which rows have a value

Nothing looks at a typed row before it is rearranged, so a row in which operands
and operators do not alternate is evaluated like any other. What it needs is no
more than a supply of operands: an operator that goes out has to find two values,
and one value has to be left.

On the rearranged row this is a matter of counting (`Runs`), and the rows with
enough of everything are the trees in postorder. On the typed row it is one too
(`Supplied`): an operator goes out when a later one is read that binds no tighter,
and by then there must have been one operand more than operators that have gone
out.

**Enough operands make a value.** A row is a tree in postorder once rearranged
exactly when it is supplied, and without a supply it has no value, whatever its
names stand for. Alternating is not needed: `1 2 +` and `+ 1 2` are supplied, and
so is `1 + * 2 3`.

**What hides the fault is an operand next to an operand.** A row without two
adjacent operands is supplied only if it alternates.
-/

namespace DeskCalculator

open Postfix

/-! ## Counting on the rearranged row -/

/-- Every operator finds two values on a stack of the given height, and one is left at the end. -/
def Runs (height : Nat) : List Token → Prop
  | [] => height = 1
  | .operand _ :: rest => Runs (height + 1) rest
  | .operator _ :: rest => 2 ≤ height ∧ Runs (height - 1) rest

/-- Each of some operators in a row takes one value off the stack. -/
theorem runs_operators_append (ops : List Operator) (height : Nat) (rest : List Token) :
    Runs height (ops.map .operator ++ rest)
      ↔ (ops.length = 0 ∨ ops.length < height) ∧ Runs (height - ops.length) rest := by
  induction ops generalizing height with
  | nil => simp
  | cons op ops ih =>
      rw [List.map_cons, List.cons_append, Runs, ih, List.length_cons, ← and_assoc,
        Nat.sub_sub, Nat.add_comm 1]
      refine and_congr_left fun _ => ?_
      omega

namespace Expr

theorem runs_iff_assemble (trees : List Expr) (row : List Token) :
    Runs trees.length row
      ↔ (assemble trees row).1.length = 1 ∧ (assemble trees row).2 = [] := by
  fun_induction assemble trees row with
  | case1 trees => simp [Runs]
  | case2 trees o rest ih => exact ih
  | case3 op rest right left below ih =>
      rw [← ih, Runs, List.length_cons, List.length_cons, List.length_cons]
      exact and_iff_right (Nat.le_add_left 2 below.length)
  | case4 trees op rest hshort =>
      -- an operator without two trees stops both
      have hlength : ¬2 ≤ trees.length := by
        rcases trees with _ | ⟨right, _ | ⟨left, below⟩⟩
        · simp
        · simp
        · exact absurd rfl (hshort right left below)
      simp [Runs, hlength]

/-- **A row has enough of everything exactly when it is a tree in postorder.** -/
theorem runs_iff_postorder (row : List Token) :
    Runs 0 row ↔ ∃ e : Expr, row = e.postorder := by
  refine (runs_iff_assemble [] row).trans ⟨?_, ?_⟩
  · rintro ⟨hone, hrest⟩
    obtain ⟨e, he⟩ := List.length_eq_one_iff.mp hone
    have hread := reading_assemble row []
    rw [he, hrest] at hread
    exact ⟨e, hread.eq_postorder⟩
  · rintro ⟨e, rfl⟩
    have hassemble := assemble_postorder e [] []
    rw [List.append_nil] at hassemble
    rw [hassemble]
    exact ⟨rfl, rfl⟩

/-- A row with a value is a tree in postorder. -/
theorem exists_postorder_of_ok {resolve : Resolver} {row : List Token} {value : Binary64}
    (h : (Evaluation.ofPostfix resolve row).outcome.result = .ok value) :
    ∃ e : Expr, row = e.postorder := by
  rw [← runs_iff_postorder]
  by_contra hruns
  have hread : Reading row (assemble [] row).1.reverse (assemble [] row).2 :=
    reading_iff.mpr ⟨rfl, rfl⟩
  have hne : ¬((assemble [] row).1.reverse.length = 1 ∧ (assemble [] row).2 = []) := by
    rw [List.length_reverse]
    exact fun hone => hruns ((runs_iff_assemble [] row).mpr hone)
  rw [ofPostfix_of_reading hread hne resolve] at h
  exact outcome_throw_ne_ok _ _ value h

end Expr

/-! ## Counting on the typed row -/

/-- How many of the operators read before an operator have gone out when it starts to wait. -/
def goneBefore (before : List Token) (op : Operator) : Nat :=
  (operators before).length - if hasLooser before op then 1 else 0

/-- The operators that go out before an operator starts to wait find two values each. -/
def FindsValues (before : List Token) (op : Operator) : Prop :=
  goneBefore before op = 0 ∨ goneBefore before op < operands before

/-- A typed row with enough operands wherever operators go out. -/
structure Supplied (row : List Token) : Prop where
  /-- While the row is read. -/
  within : ∀ before op rest, row = before ++ .operator op :: rest → FindsValues before op
  /-- At the end, where everything goes out and one value is left. -/
  total : operands row = (operators row).length + 1

/-- An operator of a row is its first token or stands in the rest of it. -/
theorem forall_operator_cons {token : Token} {row : List Token}
    {property : List Token → Operator → Prop} :
    (∀ before op rest, token :: row = before ++ .operator op :: rest → property before op)
      ↔ (∀ op, token = .operator op → property [] op)
        ∧ ∀ before op rest, row = before ++ .operator op :: rest →
          property (token :: before) op := by
  refine ⟨fun h => ⟨fun op htoken => ?_, fun before op rest hrow => ?_⟩,
    fun h before op rest hrow => ?_⟩
  · exact h [] op row (by rw [htoken, List.nil_append])
  · exact h (token :: before) op rest (by rw [hrow, List.cons_append])
  · rcases List.cons_eq_append_iff.mp hrow with ⟨rfl, hhead⟩ | ⟨before, rfl, hrest⟩
    · exact h.1 op (List.cons.inj hhead).1.symm
    · exact h.2 before op rest hrest

/-- What `Supplied` asks of the rest of a row when some of it has been read. -/
def SuppliedAfter (before row : List Token) : Prop :=
  (∀ mid op rest, row = mid ++ .operator op :: rest → FindsValues (before ++ mid) op)
    ∧ operands (before ++ row) = (operators (before ++ row)).length + 1

theorem suppliedAfter_operand (before row : List Token) (o : Operand) :
    SuppliedAfter before (.operand o :: row) ↔ SuppliedAfter (before ++ [.operand o]) row := by
  simp only [SuppliedAfter, forall_operator_cons, List.append_assoc, List.cons_append,
    List.nil_append]
  refine and_congr_left fun _ => ?_
  exact and_iff_right fun op hop => nomatch hop

theorem suppliedAfter_operator (before row : List Token) (op : Operator) :
    SuppliedAfter before (.operator op :: row)
      ↔ FindsValues before op ∧ SuppliedAfter (before ++ [.operator op]) row := by
  simp only [SuppliedAfter, forall_operator_cons, List.append_assoc, List.cons_append,
    List.nil_append, List.append_nil, Token.operator.injEq, forall_eq', and_assoc]

/--
**Rearranging the rest of a row runs exactly when the rest is supplied.**

The stack holds what the operands brought and the operators that have gone out
took off again; the operators that have not gone out wait.
-/
theorem runs_arrange_iff {before row : List Token} {height : Nat}
    (hheight : height + (operators before).length
      = operands before + (waitingAfter before).length)
    (hvalue : (operators before).length = (waitingAfter before).length ∨ 0 < height) :
    Runs height (arrange (waitingAfter before) row) ↔ SuppliedAfter before row := by
  induction row generalizing before height with
  | nil =>
      rw [arrange, ← List.append_nil (List.map _ _), runs_operators_append, Runs,
        SuppliedAfter, List.append_nil]
      simp only [List.nil_eq, List.append_eq_nil_iff, reduceCtorEq, and_false, false_implies,
        implies_true, true_and]
      omega
  | cons token row ih =>
      have hwaiting := waitingAfter_concat before token
      cases token with
      | operand o =>
          rw [arrange, release, List.singleton_append, Runs, ← hwaiting, suppliedAfter_operand]
          refine ih ?_ ?_
          · rw [hwaiting, wait]
            simp only [operators_append, operands_append, operators_cons_operand,
              operands_cons_operand, operators_nil, operands_nil, List.append_nil]
            omega
          · exact Or.inr (Nat.succ_pos height)
      | operator op =>
          have hsplit := congrArg List.length
            (List.takeWhile_append_dropWhile (p := goesBefore op) (l := waitingAfter before))
          have hstays := length_dropWhile_waitingAfter before op
          have hwaited := length_waitingAfter_le before
          rw [List.length_append] at hsplit
          rw [arrange, release, runs_operators_append, ← hwaiting, suppliedAfter_operator]
          -- what has gone out when `op` waits is what had gone out and what goes out now
          have hgone : goneBefore before op
              = (operators before).length
                - ((waitingAfter before).dropWhile (goesBefore op)).length := by
            rw [goneBefore, hstays]
          have hfinds : FindsValues before op
              ↔ ((waitingAfter before).takeWhile (goesBefore op)).length = 0
                ∨ ((waitingAfter before).takeWhile (goesBefore op)).length < height := by
            rw [FindsValues, hgone]
            omega
          rw [hfinds]
          refine and_congr_right fun hout => ih ?_ ?_
          · rw [hwaiting, wait, List.length_cons]
            simp only [operators_append, operands_append, operators_cons_operator,
              operands_cons_operator, operators_nil, operands_nil, List.length_append,
              List.length_cons, List.length_nil]
            omega
          · rw [hwaiting, wait, List.length_cons]
            simp only [operators_append, operators_cons_operator, operators_nil,
              List.length_append, List.length_cons, List.length_nil]
            omega

/-- **A row is a tree once rearranged exactly when it is supplied.** -/
theorem supplied_iff_postorder (row : List Token) :
    Supplied row ↔ ∃ e : Expr, ofRow row = e.postorder := by
  have hruns : Runs 0 (arrange (waitingAfter []) row) ↔ SuppliedAfter [] row :=
    runs_arrange_iff rfl (Or.inl rfl)
  rw [← Expr.runs_iff_postorder]
  exact Iff.trans ⟨fun h => ⟨h.within, h.total⟩, fun h => ⟨h.1, h.2⟩⟩ hruns.symm

/-! ## Rows without adjacent operands -/

/-- No operand stands next to an operand. -/
def OperandsApart (row : List Token) : Prop :=
  row.IsChain fun a b => ¬(a.isOperand ∧ b.isOperand)

/-- Behind an operand there is at most an operand for each operator, and if so, the row goes on. -/
theorem operands_le_of_apart {row : List Token} {o : Operand}
    (h : OperandsApart (.operand o :: row)) :
    operands row ≤ (operators row).length
      ∧ (operands row = (operators row).length →
        ∃ pairs : List (Operator × Operand), row = pairs.flatMap Row.pairTokens) := by
  match row with
  | [] => exact ⟨Nat.le_refl 0, fun _ => ⟨[], rfl⟩⟩
  | .operand o' :: rest => exact absurd (And.intro rfl rfl) (List.isChain_cons_cons.mp h).1
  | [.operator op] => exact ⟨Nat.zero_le 1, nofun⟩
  | .operator op :: .operand o' :: rest =>
      have hrest : OperandsApart (.operand o' :: rest) :=
        (List.isChain_cons_cons.mp (List.isChain_cons_cons.mp h).2).2
      obtain ⟨hle, hrow⟩ := operands_le_of_apart hrest
      simp only [operands_cons_operator, operands_cons_operand, operators_cons_operator,
        operators_cons_operand, List.length_cons]
      refine ⟨by omega, fun heq => ?_⟩
      obtain ⟨pairs, rfl⟩ := hrow (by omega)
      exact ⟨(op, o') :: pairs, rfl⟩
  | .operator op :: .operator op' :: rest =>
      -- the second operator could have stood behind the operand as well
      have hrest : OperandsApart (.operand o :: .operator op' :: rest) :=
        List.isChain_cons_cons.mpr
          ⟨fun hboth => Bool.false_ne_true hboth.2,
            (List.isChain_cons_cons.mp (List.isChain_cons_cons.mp h).2).2⟩
      obtain ⟨hle, -⟩ := operands_le_of_apart hrest
      simp only [operands_cons_operator, operators_cons_operator, List.length_cons] at hle ⊢
      exact ⟨by omega, fun heq => by omega⟩
termination_by row.length

/-- **Without adjacent operands only an alternating row has one operand more than operators.** -/
theorem exists_row_of_apart {row : List Token} (h : OperandsApart row)
    (htotal : operands row = (operators row).length + 1) : ∃ r : Row, row = r.tokens := by
  match row with
  | [] => cases htotal
  | .operand o :: rest =>
      rw [operands_cons_operand, operators_cons_operand] at htotal
      obtain ⟨pairs, rfl⟩ := (operands_le_of_apart h).2 (Nat.succ.inj htotal)
      exact ⟨⟨o, pairs⟩, rfl⟩
  | .operator op :: rest =>
      -- with any operand in front the row would still have too few of them
      have hbehind (o : Operand) : OperandsApart (.operand o :: .operator op :: rest) :=
        List.isChain_cons_cons.mpr ⟨fun hboth => Bool.false_ne_true hboth.2, h⟩
      have hle := (operands_le_of_apart (hbehind (.name ""))).1
      omega

theorem supplied_tokens (r : Row) : Supplied r.tokens := by
  rw [supplied_iff_postorder, ← r.inorder_toExpr]
  exact ⟨r.toExpr, Expr.ofRow_inorder r.grouped_toExpr⟩

/--
**A row has a value only if it is supplied with operands.**

A supplied row is evaluated as the tree that it is once rearranged. A row that is
not supplied has no value, for any resolver. And if no two of its operands are
adjacent, a row is supplied exactly when operands and operators alternate in it.
-/
theorem evaluate_of_supplied (resolve : Resolver) (texts : List String) :
    let row := Token.classifyAll texts
    (Supplied row ↔ ∃ e : Expr, ofRow row = e.postorder
        ∧ Evaluation.ofPostfix resolve (ofRow row) = e.evaluate resolve)
      ∧ (∀ answer, (evaluate resolve texts).outcome.result = .ok answer → Supplied row)
      ∧ (OperandsApart row → (Supplied row ↔ ∃ r : Row, row = r.tokens)) := by
  intro row
  refine ⟨?_, fun answer hanswer => ?_, fun hapart => ⟨fun h => ?_, ?_⟩⟩
  · rw [supplied_iff_postorder]
    refine exists_congr fun e => (and_iff_left_of_imp fun h => ?_).symm
    rw [h, Expr.ofPostfix_postorder]
  · -- a value can only come from the postorder of a tree
    rw [supplied_iff_postorder]
    rw [outcome_evaluate] at hanswer
    cases hresult : (Evaluation.ofPostfix resolve (ofRow row)).outcome.result with
    | ok value => exact Expr.exists_postorder_of_ok hresult
    | error error =>
        rw [hresult] at hanswer
        cases hanswer
  · exact exists_row_of_apart hapart h.total
  · rintro ⟨r, hrow⟩
    rw [hrow]
    exact supplied_tokens r

/-- The texts shown for a value that needs no name, and for the row it was worked out from. -/
def shownValue? (texts : List String) : Option (String × String) :=
  (evaluate (fun _ name => .error (.invalidVariable name)) texts).outcome.result.toOption.map
    fun answer => (Display.text answer.1, answer.2.typed)

/-- `1 2 +`, `+ 1 2` and `1 + * 2 3` have a value, and none of them alternates. -/
theorem shownValue_not_alternating :
    (∀ texts ∈ [["1", "2", "+"], ["+", "1", "2"], ["1", "+", "*", "2", "3"]],
        (∀ text ∈ texts, (Token.classify? text).isSome)
          ∧ ¬∃ row : Row, Token.classifyAll texts = row.tokens)
      ∧ shownValue? ["1", "2", "+"] = some ("3", "1 2 +")
      ∧ shownValue? ["+", "1", "2"] = some ("3", "+ 1 2")
      ∧ shownValue? ["1", "+", "*", "2", "3"] = some ("7", "1 + * 2 3") := by
  have hrow : ∀ texts ∈ [["1", "2", "+"], ["+", "1", "2"], ["1", "+", "*", "2", "3"]],
      (∀ text ∈ texts, (Token.classify? text).isSome)
        ∧ Row.ofTokens? (Token.classifyAll texts) = none := by
    decide +kernel
  refine ⟨fun texts htexts => ⟨(hrow texts htexts).1, ?_⟩, by decide +kernel⟩
  -- reading the row back would succeed for a row in shape
  rintro ⟨row, heq⟩
  have hsome := Row.ofTokens?_eq_some_iff.mpr heq
  rw [(hrow texts htexts).2] at hsome
  cases hsome

end DeskCalculator
