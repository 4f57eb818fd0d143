import DeskCalculator.Proofs.Entering

/-!
# The last operator wins

An operator is typed behind a result, behind the row that is committed with it, or
in the place of an operator that was typed just before. Each of these leaves a row
with the operator at its end and nothing pending, and from there the next operator
does only the last of the three: it takes the place of the one before it.

So a slip of the finger is put right by typing the operator that was meant. The row
in front of the operators is made by the first of them, and is the same whichever
it is.
-/

namespace DeskCalculator.Session

/-- The row that an operator is typed behind. -/
def front (s : Session) : List String :=
  if s.phase = .evaluated then [s.pending]
  else if s.awaitsOperand then s.tokens.dropLast
  else s.commit.tokens

theorem operator_eq_awaiting (s : Session) (op : Operator) :
    s.operator op = s.awaiting s.front op := rfl

theorem awaitsOperand_awaiting (s : Session) (texts : List String) (op : Operator) :
    (s.awaiting texts op).awaitsOperand = true := by
  rw [awaitsOperand, lastIs_awaiting, Token.isOperatorText_text]
  rfl

/-- Behind an operator, the row in front stays as it is. -/
theorem front_awaiting (s : Session) (texts : List String) (op : Operator) :
    (s.awaiting texts op).front = texts := by
  have hphase : ¬(s.awaiting texts op).phase = .evaluated := nofun
  rw [front, if_neg hphase, if_pos (awaitsOperand_awaiting s texts op)]
  exact List.dropLast_concat

/-- **An operator takes the place of the one before it.** -/
theorem operator_awaiting (s : Session) (texts : List String) (op next : Operator) :
    (s.awaiting texts op).operator next = s.awaiting texts next := by
  rw [operator_eq_awaiting, front_awaiting]
  rfl

theorem performAll_awaiting_operators (s : Session) (texts : List String) (op : Operator)
    (ops : List Operator) :
    (s.awaiting texts op).performAll (ops.map .operator) = s.awaiting texts (ops.getLastD op) := by
  induction ops generalizing op with
  | nil => rfl
  | cons next ops ih =>
      rw [List.map_cons, performAll_cons, List.getLastD_cons]
      show ((s.awaiting texts op).operator next).performAll _ = _
      rw [operator_awaiting, ih]

/--
**Of several operators in a row only the last one counts.** Typing them leaves the
session that the last one leaves alone. After each of them, the row in front of the
operator is the same, and nothing is pending.
-/
theorem performAll_operators (s : Session) :
    ∃ front : List String, ∀ (ops : List Operator) (hne : ops ≠ []),
      s.performAll (ops.map .operator) = s.operator (ops.getLast hne)
        ∧ (s.operator (ops.getLast hne)).tokens = front ++ [(ops.getLast hne).text]
        ∧ (s.operator (ops.getLast hne)).pending = nothingTyped := by
  refine ⟨s.front, ?_⟩
  intro ops hne
  refine ⟨?_, rfl, rfl⟩
  obtain ⟨first, more, rfl⟩ := List.exists_cons_of_ne_nil hne
  rw [List.map_cons, performAll_cons, operator_eq_awaiting, List.getLast_eq_getLastD]
  show (s.operator first).performAll _ = _
  rw [operator_eq_awaiting, performAll_awaiting_operators]

theorem performAll_operators_corrected :
    (({} : Session).digit '5').performAll ([.add, .div, .mul].map .operator)
        = (({} : Session).digit '5').operator .mul
      ∧ ((({} : Session).digit '5').operator .mul).tokens = ["5", "*"] := by
  obtain ⟨front, h⟩ := performAll_operators (({} : Session).digit '5')
  exact ⟨(h [.add, .div, .mul] (List.cons_ne_nil _ _)).1, by decide⟩

end DeskCalculator.Session
