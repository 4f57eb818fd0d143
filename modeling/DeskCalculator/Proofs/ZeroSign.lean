import DeskCalculator.Operator
import DeskCalculator.Proofs.PrintedRow
import DeskCalculator.Proofs.TidiedResult

/-!
# The sign of a zero

The text that is shown for a zero has no sign. A negative zero that is shown and
read back has therefore become a positive one, and a calculation goes on with that.

This makes no difference but for the sign of a later zero. With a zero on the
left, a sum and a difference have the size of what is on the right; a product and
a quotient are zero, or NaN, for either sign; and a division is refused by the look
of its divisor.
-/

namespace DeskCalculator

namespace Binary64

/-- The value, with the positive zero for both zeros. -/
def forgetZeroSign (v : Binary64) : Binary64 := if v.isZero then zero false else v

theorem forgetZeroSign_zero (negative : Bool) : (zero negative).forgetZeroSign = zero false := rfl

theorem forgetZeroSign_cases (v : Binary64) :
    v.forgetZeroSign = v ∨ ∃ negative, v = zero negative := by
  by_cases h : v.isZero
  · match v with
    | finite negative ⟨rank, hrank⟩ =>
        have hzero : rank = 0 := of_decide_eq_true h
        subst hzero
        exact Or.inr ⟨negative, rfl⟩
  · exact Or.inl (if_neg h)

theorem isFinite_forgetZeroSign {v : Binary64} (h : v.isFinite) : v.forgetZeroSign.isFinite := by
  rcases v.forgetZeroSign_cases with hsame | ⟨negative, rfl⟩
  · rw [hsame]
    exact h
  · rfl

theorem map_forgetZeroSign_eq_error_iff {result : Except EvalError Binary64} {error : EvalError} :
    result.map forgetZeroSign = .error error ↔ result = .error error := by
  cases result with
  | error _ => exact Iff.rfl
  | ok value => exact ⟨nofun, nofun⟩

theorem ofRatio_zero (negative : Bool) {den : Nat} (hden : 0 < den) :
    ofRatio negative 0 den = zero negative := by
  rw [ofRatio, nearestRank_zero hden]
  rfl

/-! ## A zero on the left -/

theorem finite_add_finite (n m : Bool) (a b : Fin finiteRanks) :
    finite n a + finite m b
      = ofRatio (if signedUnits n a + signedUnits m b = 0 then n && m
          else decide (signedUnits n a + signedUnits m b < 0))
        (signedUnits n a + signedUnits m b).natAbs 1 := rfl

theorem finite_mul_finite (n m : Bool) (a b : Fin finiteRanks) :
    finite n a * finite m b = ofRatio (n ^^ m) (units a * units b) unitsPerOne := by
  show mul (finite n a) (finite m b) = _
  rw [mul]

theorem finite_div_finite (n m : Bool) (a : Fin finiteRanks) {b : Fin finiteRanks}
    (h : b.val ≠ 0) :
    finite n a / finite m b = ofRatio (n ^^ m) (units a * unitsPerOne) (units b) := if_neg h

theorem forgetZeroSign_zero_add (negative : Bool) (right : Binary64) :
    (zero negative + right).forgetZeroSign = (zero false + right).forgetZeroSign := by
  cases right with
  | nan => rfl
  | infinite sign => rfl
  | finite sign rank =>
      have hzero (n : Bool) : signedUnits n 0 = 0 := by cases n <;> rfl
      -- the two sums have the same size, and the same sign unless they are zero
      have hsum (n : Bool) : zero n + finite sign rank
          = ofRatio (if signedUnits sign rank = 0 then n && sign
              else decide (signedUnits sign rank < 0)) (signedUnits sign rank).natAbs 1 := by
        rw [zero, finite_add_finite, hzero, Int.zero_add]
      rw [hsum, hsum]
      by_cases htotal : signedUnits sign rank = 0
      · rw [htotal, Int.natAbs_zero, ofRatio_zero _ Nat.one_pos, ofRatio_zero _ Nat.one_pos,
          forgetZeroSign_zero, forgetZeroSign_zero]
      · rw [if_neg htotal, if_neg htotal]

theorem forgetZeroSign_zero_mul (negative : Bool) (right : Binary64) :
    (zero negative * right).forgetZeroSign = (zero false * right).forgetZeroSign := by
  cases right with
  | nan => rfl
  | infinite sign => rfl
  | finite sign rank =>
      have hproduct (n : Bool) : zero n * finite sign rank = zero (n ^^ sign) := by
        rw [zero, finite_mul_finite, units_zero, Nat.zero_mul, ofRatio_zero _ unitsPerOne_pos]
      rw [hproduct, hproduct, forgetZeroSign_zero, forgetZeroSign_zero]

theorem forgetZeroSign_zero_div (negative : Bool) (right : Binary64) :
    (zero negative / right).forgetZeroSign = (zero false / right).forgetZeroSign := by
  cases right with
  | nan => rfl
  | infinite sign => rfl
  | finite sign rank =>
      -- nothing by nothing is no number, nothing by anything else is a zero
      by_cases hrank : rank.val = 0
      · have hnone (n : Bool) : zero n / finite sign rank = nan := if_pos hrank
        rw [hnone, hnone]
      · have hquotient (n : Bool) : zero n / finite sign rank = zero (n ^^ sign) := by
          have hpos : 0 < units rank := units_lt_units (Nat.pos_of_ne_zero hrank)
          rw [zero, finite_div_finite _ _ _ hrank, units_zero, Nat.zero_mul, ofRatio_zero _ hpos]
        rw [hquotient, hquotient, forgetZeroSign_zero, forgetZeroSign_zero]

end Binary64

open Binary64

/-- **To an operator, the sign of a zero on the left is the sign of a zero at most.** -/
theorem Operator.map_apply_forgetZeroSign (op : Operator) (left right : Binary64) :
    (op.apply left.forgetZeroSign right).map forgetZeroSign
      = (op.apply left right).map forgetZeroSign := by
  -- there is something to forget only if the left operand is a zero
  rcases left.forgetZeroSign_cases with hsame | ⟨negative, rfl⟩
  · rw [hsame]
  · rw [forgetZeroSign_zero]
    cases op with
    | add => exact congrArg Except.ok (forgetZeroSign_zero_add negative right).symm
    | sub => exact congrArg Except.ok (forgetZeroSign_zero_add negative (-right)).symm
    | mul => exact congrArg Except.ok (forgetZeroSign_zero_mul negative right).symm
    | div =>
        unfold apply
        dsimp only
        split
        · rfl
        · exact congrArg Except.ok (forgetZeroSign_zero_div negative right).symm

namespace Display

theorem tidy_zero (negative : Bool) : tidy (zero negative) = zero negative := by
  refine tidy_eq_self (Or.inl ?_)
  rw [zero, isInteger, decide_eq_true_iff, units_zero, Nat.zero_mod]

theorem forgetZeroSign_tidy (v : Binary64) :
    (tidy v.forgetZeroSign).forgetZeroSign = (tidy v).forgetZeroSign := by
  rcases v.forgetZeroSign_cases with hsame | ⟨negative, rfl⟩
  · rw [hsame]
  · rw [forgetZeroSign_zero, tidy_zero, tidy_zero, forgetZeroSign_zero, forgetZeroSign_zero]

/-- Values that are the same but for the sign of a zero are tidied to such values. -/
theorem map_tidy_congr {first second : Except EvalError Binary64}
    (h : first.map forgetZeroSign = second.map forgetZeroSign) :
    (first.map tidy).map forgetZeroSign = (second.map tidy).map forgetZeroSign := by
  match first, second with
  | .error error, .error error' => exact congrArg Except.error (Except.error.inj h)
  | .ok v, .ok w =>
      have hsame : v.forgetZeroSign = w.forgetZeroSign := Except.ok.inj h
      have htidy : (tidy v).forgetZeroSign = (tidy w).forgetZeroSign := by
        rw [← forgetZeroSign_tidy v, hsame, forgetZeroSign_tidy]
      exact congrArg Except.ok htidy

/-- What is shown is the text of the value without the sign of a zero. -/
theorem text_eq (v : Binary64) : text v = v.forgetZeroSign.text := by
  unfold text forgetZeroSign
  split <;> rfl

/-- **A shown result reads as the result**, without the sign of a zero. -/
theorem readNumber?_text {v : Binary64} (h : v.isFinite) :
    readNumber? (text v) = some v.forgetZeroSign := by
  rw [text_eq]
  match v.forgetZeroSign, isFinite_forgetZeroSign h with
  | .finite negative rank, _ => exact readNumber?_text_finite negative rank

theorem isFinite_tidy {v : Binary64} (h : v.isFinite) : (tidy v).isFinite := by
  match v, h with
  | .finite negative rank, _ =>
      rw [tidy_finite]
      rfl

end Display

end DeskCalculator
