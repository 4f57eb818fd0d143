import DeskCalculator.Proofs.NumberEntry

/-!
# Committing a numeral

An operator commits the pending text, at the start and after an operator. Only a
bare zero after an operator is taken for nothing typed, and dropped together with
the operator before it.
-/

namespace DeskCalculator

namespace Session

/-- The session in which an operator has just been typed after some texts. -/
def awaiting (texts : List String) (op : Operator) (s : Session) : Session :=
  { s.beginEntry with tokens := texts ++ [op.text], pending := nothingTyped }

/-- An operand is due: at the start, and after an operator. -/
def OperandDue (s : Session) : Prop := s.lastIs Token.isOperandText = false

theorem lastIs_awaiting (property : String → Bool) (s : Session) (texts : List String)
    (op : Operator) : (s.awaiting texts op).lastIs property = property op.text := by
  rw [lastIs, awaiting, List.getLast?_concat, Option.any_some]

theorem operandDue_awaiting (texts : List String) (op : Operator) (s : Session) :
    (s.awaiting texts op).OperandDue := by
  rw [OperandDue, lastIs_awaiting, Token.isOperandText_text]

/-- Where an operand is due, the pending text is committed, whether it is a zero or not. -/
theorem tokens_commit {s : Session} (h : s.OperandDue) {pending : List Char}
    (hne : pending ≠ []) :
    (s.entering pending).commit.tokens = s.tokens ++ [String.ofList pending] := by
  have hdue : ¬(s.entering pending).lastIs Token.isOperandText = true := by
    have hlast : (s.entering pending).lastIs Token.isOperandText = false := h
    rw [hlast]
    exact Bool.false_ne_true
  have hempty : ¬(s.entering pending).pending = "" := by
    intro hpending
    have hchars := congrArg String.toList hpending
    rw [pending_entering, String.toList_ofList] at hchars
    exact hne hchars
  rw [commit, if_neg hempty]
  by_cases hzero : (s.entering pending).pending = nothingTyped
  · -- the zero may be the one that nobody typed; it is committed all the same
    rw [if_pos hzero, if_neg hdue, ofList_eq_nothingTyped_iff.mp hzero]
    rfl
  · rw [if_neg hzero]
    rfl

theorem operator_first (n : Numeral) (op : Operator) :
    (({} : Session).entering n.trimmed.chars).operator op
      = ({} : Session).awaiting [n.trimmed.text] op := by
  have hdue : ({} : Session).OperandDue := rfl
  have hcommit : (({} : Session).entering n.trimmed.chars).commit.tokens = [n.trimmed.text] :=
    tokens_commit hdue n.trimmed.chars_ne_nil
  show { ({} : Session).beginEntry with
    tokens := (({} : Session).entering n.trimmed.chars).commit.tokens ++ [op.text] } = _
  rw [hcommit]
  rfl

/-- After an operator, a bare zero that was typed looks as if nothing had been typed. -/
theorem awaitsOperand_entering (s : Session) (texts : List String) (op : Operator) (n : Numeral) :
    ((s.awaiting texts op).entering n.trimmed.chars).awaitsOperand = n.isZero := by
  have hlast : ((s.awaiting texts op).entering n.trimmed.chars).lastIs Token.isOperatorText
      = true := by
    show (s.awaiting texts op).lastIs Token.isOperatorText = true
    rw [lastIs_awaiting, Token.isOperatorText_text]
  have hpending : (((s.awaiting texts op).entering n.trimmed.chars).pending == nothingTyped)
      = n.isZero := by
    rw [Bool.eq_iff_iff, beq_iff_eq, pending_entering, ofList_eq_nothingTyped_iff]
    exact Numeral.chars_trimmed_eq_zero_iff
  rw [awaitsOperand, hlast, hpending, Bool.true_and]

/-- After an operator, the next operator commits a numeral, unless it is a bare zero. -/
theorem operator_next (s : Session) (texts : List String) (op next : Operator) (n : Numeral) :
    ((s.awaiting texts op).entering n.trimmed.chars).operator next
      = s.awaiting (if n.isZero then texts else texts ++ [op.text, n.trimmed.text]) next := by
  have hphase : ¬((s.awaiting texts op).entering n.trimmed.chars).phase = .evaluated := nofun
  rw [operator, if_neg hphase, awaitsOperand_entering]
  by_cases hzero : n.isZero
  · -- the operator before the zero goes, and the zero was never committed
    have hdrop : ((s.awaiting texts op).entering n.trimmed.chars).tokens.dropLast = texts :=
      List.dropLast_concat
    rw [if_pos hzero, if_pos hzero, hdrop]
    rfl
  · have htexts : (s.awaiting texts op).tokens ++ [n.trimmed.text]
        = texts ++ [op.text, n.trimmed.text] := List.append_assoc texts [op.text] [n.trimmed.text]
    rw [if_neg hzero, if_neg hzero, tokens_commit (operandDue_awaiting texts op s)
      n.trimmed.chars_ne_nil, ← Numeral.text, htexts]
    rfl

end Session

end DeskCalculator
