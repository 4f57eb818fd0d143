import DeskCalculator.Postfix
import Mathlib.Data.List.Induction
import Mathlib.Data.List.TakeWhile

/-!
# What waits while a row is rearranged

Rearranging puts the operands out at once and lets the operators wait on a stack.

**The stack is sorted.** An operator starts to wait when all that bind at least as
tightly have gone out, so it waits on operators that bind looser, and the number
of operators that wait is less than the number of precedences there can be.

**What has gone out is known from the row.** Of the operators read so far, the one
that binds loosest cannot have gone out before an equally loose one came, and then
that one waits. So whether an operator waits that binds looser than a given one
can be read off the row, without running the stack.
-/

namespace DeskCalculator

/-- The operator that a token is. -/
def Token.operator? : Token → Option Operator
  | .operator op => some op
  | .operand _ => none

theorem Operator.precedence_pos (op : Operator) : 0 < op.precedence := by
  cases op <;> decide

namespace Postfix

/-- The operators of a row, in the order in which they stand. -/
def operators (row : List Token) : List Operator := row.filterMap Token.operator?

/-- How many operands a row has. -/
def operands (row : List Token) : Nat := row.countP Token.isOperand

@[simp] theorem operators_append (row more : List Token) :
    operators (row ++ more) = operators row ++ operators more :=
  List.filterMap_append

@[simp] theorem operands_append (row more : List Token) :
    operands (row ++ more) = operands row + operands more :=
  List.countP_append

@[simp] theorem operators_cons_operand (o : Operand) (row : List Token) :
    operators (.operand o :: row) = operators row := rfl

@[simp] theorem operators_cons_operator (op : Operator) (row : List Token) :
    operators (.operator op :: row) = op :: operators row := rfl

@[simp] theorem operands_cons_operand (o : Operand) (row : List Token) :
    operands (.operand o :: row) = operands row + 1 :=
  List.countP_cons_of_pos rfl

@[simp] theorem operands_cons_operator (op : Operator) (row : List Token) :
    operands (.operator op :: row) = operands row :=
  List.countP_cons_of_neg Bool.false_ne_true

@[simp] theorem operators_nil : operators [] = [] := rfl

@[simp] theorem operands_nil : operands [] = 0 := rfl

/-! ## The stack is sorted -/

/-- Every waiting operator binds tighter than all that have waited longer. -/
def Stacked (waiting : List Operator) : Prop :=
  waiting.Pairwise fun later earlier => earlier.precedence < later.precedence

theorem Stacked.looser_of_mem_dropWhile {waiting : List Operator} (h : Stacked waiting)
    {op w : Operator} (hw : w ∈ waiting.dropWhile (goesBefore op)) :
    w.precedence < op.precedence := by
  induction waiting with
  | nil => cases hw
  | cons top below ih =>
      obtain ⟨htop, hbelow⟩ := List.pairwise_cons.mp h
      by_cases hgoes : goesBefore op top = true
      · rw [List.dropWhile_cons_of_pos hgoes] at hw
        exact ih hbelow hw
      · -- the top stays, and with it all that is below
        rw [List.dropWhile_cons_of_neg hgoes] at hw
        rw [goesBefore_iff, Nat.not_le] at hgoes
        rcases List.mem_cons.mp hw with rfl | hmem
        · exact hgoes
        · exact Nat.lt_trans (htop w hmem) hgoes

/-- An operator that binds tighter than the latest that waits binds tighter than all of them. -/
theorem Stacked.looser_of_head {waiting : List Operator} (h : Stacked waiting) {op : Operator}
    (hlatest : ∀ latest ∈ waiting.head?, latest.precedence < op.precedence) :
    ∀ w ∈ waiting, w.precedence < op.precedence := by
  intro w hw
  cases waiting with
  | nil => cases hw
  | cons top below =>
      have htop := hlatest top rfl
      rcases List.mem_cons.mp hw with rfl | hmem
      · exact htop
      · exact Nat.lt_trans (List.rel_of_pairwise_cons h hmem) htop

theorem Stacked.wait {waiting : List Operator} (h : Stacked waiting) (token : Token) :
    Stacked (wait waiting token) := by
  cases token with
  | operand o => exact h
  | operator op =>
      refine List.pairwise_cons.mpr ⟨fun w hw => h.looser_of_mem_dropWhile hw, ?_⟩
      exact List.Pairwise.sublist (List.dropWhile_sublist _) h

/-- **No more operators wait than there are precedences.** -/
theorem Stacked.length_lt {waiting : List Operator} (h : Stacked waiting) {bound : Nat}
    (hpos : 0 < bound) (hbound : ∀ w ∈ waiting, w.precedence < bound) :
    waiting.length < bound := by
  induction waiting generalizing bound with
  | nil => exact hpos
  | cons top below ih =>
      obtain ⟨htop, hbelow⟩ := List.pairwise_cons.mp h
      have hlength := ih hbelow top.precedence_pos htop
      have hlt := hbound top List.mem_cons_self
      rw [List.length_cons]
      omega

/-! ## What waits after a row is read -/

/-- The operators that wait after some tokens are read, none waiting before. -/
def waitingAfter (row : List Token) : List Operator := row.foldl wait []

theorem waitingAfter_concat (row : List Token) (token : Token) :
    waitingAfter (row ++ [token]) = wait (waitingAfter row) token :=
  List.foldl_append

theorem stacked_waitingAfter (row : List Token) : Stacked (waitingAfter row) := by
  induction row using List.reverseRecOn with
  | nil => exact List.Pairwise.nil
  | append_singleton row token ih =>
      rw [waitingAfter_concat]
      exact ih.wait token

theorem length_waitingAfter_le (row : List Token) :
    (waitingAfter row).length ≤ (operators row).length := by
  induction row using List.reverseRecOn with
  | nil => exact Nat.le_refl 0
  | append_singleton row token ih =>
      rw [waitingAfter_concat, operators_append, List.length_append]
      cases token with
      | operand o => exact ih
      | operator op =>
          have hstays := (List.dropWhile_sublist (goesBefore op) (l := waitingAfter row)).length_le
          exact Nat.succ_le_succ (Nat.le_trans hstays ih)

/-- An operator goes out only where one that binds no tighter starts to wait. -/
theorem exists_looser_wait {waiting : List Operator} (op : Operator) (bound : Nat) :
    (∃ w ∈ wait waiting (.operator op), w.precedence < bound)
      ↔ (∃ w ∈ waiting, w.precedence < bound) ∨ op.precedence < bound := by
  have hsplit := List.takeWhile_append_dropWhile (p := goesBefore op) (l := waiting)
  refine ⟨?_, ?_⟩
  · rintro ⟨w, hw, hlt⟩
    rcases List.mem_cons.mp hw with rfl | hmem
    · exact Or.inr hlt
    · exact Or.inl ⟨w, (List.dropWhile_sublist _).subset hmem, hlt⟩
  · rintro (⟨w, hw, hlt⟩ | hlt)
    · rw [← hsplit] at hw
      rcases List.mem_append.mp hw with hout | hstays
      · -- what went out is no looser than the operator that let it out
        have hle := goesBefore_iff.mp (List.mem_takeWhile_imp hout)
        exact ⟨op, List.mem_cons_self, Nat.lt_of_le_of_lt hle hlt⟩
      · exact ⟨w, List.mem_cons_of_mem op hstays, hlt⟩
    · exact ⟨op, List.mem_cons_self, hlt⟩

/-- **An operator that binds looser waits exactly when the row has one.** -/
theorem exists_looser_waitingAfter (row : List Token) (bound : Nat) :
    (∃ w ∈ waitingAfter row, w.precedence < bound)
      ↔ ∃ op ∈ operators row, op.precedence < bound := by
  induction row using List.reverseRecOn with
  | nil => rfl
  | append_singleton row token ih =>
      rw [waitingAfter_concat]
      cases token with
      | operand o => simpa [wait] using ih
      | operator op =>
          rw [exists_looser_wait, ih]
          simp [or_and_right, exists_or]

/-- The row has an operator that binds looser than the given one. -/
def hasLooser (row : List Token) (op : Operator) : Bool :=
  (operators row).any (·.precedence < op.precedence)

theorem hasLooser_iff {row : List Token} {op : Operator} :
    hasLooser row op = true ↔ ∃ w ∈ waitingAfter row, w.precedence < op.precedence := by
  rw [exists_looser_waitingAfter, hasLooser, List.any_eq_true]
  simp only [decide_eq_true_eq]

/-- When an operator starts to wait, at most one is left below it, and then it binds looser. -/
theorem length_dropWhile_waitingAfter (row : List Token) (op : Operator) :
    ((waitingAfter row).dropWhile (goesBefore op)).length = if hasLooser row op then 1 else 0 := by
  have hstacked := stacked_waitingAfter row
  have hlooser : ∀ w ∈ (waitingAfter row).dropWhile (goesBefore op),
      w.precedence < op.precedence := fun _ hw => hstacked.looser_of_mem_dropWhile hw
  have hlength : ((waitingAfter row).dropWhile (goesBefore op)).length < op.precedence :=
    Stacked.length_lt (hstacked.sublist (List.dropWhile_sublist _)) op.precedence_pos hlooser
  have htwo := op.precedence_le_two
  split
  · next hyes =>
    -- the looser one cannot have gone out
    obtain ⟨w, hw, hlt⟩ := hasLooser_iff.mp hyes
    have hmem : w ∈ (waitingAfter row).dropWhile (goesBefore op) := by
      rw [← List.takeWhile_append_dropWhile (p := goesBefore op) (l := waitingAfter row)] at hw
      rcases List.mem_append.mp hw with hout | hstays
      · have hle := goesBefore_iff.mp (List.mem_takeWhile_imp hout)
        omega
      · exact hstays
    have hpos := List.length_pos_of_mem hmem
    omega
  · next hno =>
    refine List.length_eq_zero_iff.mpr (List.eq_nil_iff_forall_not_mem.mpr fun w hw => hno ?_)
    exact hasLooser_iff.mpr ⟨w, (List.dropWhile_sublist _).subset hw, hlooser w hw⟩

end Postfix

end DeskCalculator
