import DeskCalculator.Decimal.ReadBack
import Mathlib.Algebra.Order.Field.Power
import Mathlib.Algebra.Order.Group.Abs
import Mathlib.Data.Rat.Floor
import Mathlib.Tactic.FieldSimp
import Mathlib.Tactic.Linarith
import Mathlib.Tactic.Positivity

/-!
# Doubles and decimals as rational numbers

A finite double is a rational number, and so is a decimal. Seen as numbers they
can be compared without units and denominators, and reading a decimal is plain
rounding: the step it is read as depends on its value alone, and the values that
are read as one step form an interval around it, which ends halfway to the two
neighbouring steps.

**Close steps.** Two decimals that are read as the same step are no further apart
than the step is from the next one.
-/

namespace DeskCalculator

/-- The number at the step of the given rank. -/
def magnitude (rank : Nat) : ℚ := units rank / unitsPerOne

/-- The number halfway between a step and the next one. -/
def halfway (rank : Nat) : ℚ := (magnitude rank + magnitude (rank + 1)) / 2

/-- How far the next step is. -/
def gap (rank : Nat) : ℚ := magnitude (rank + 1) - magnitude rank

theorem unitsPerOne_pos : 0 < unitsPerOne := by decide +kernel

theorem unitsPerOne_cast : (unitsPerOne : ℚ) = 2 ^ (1074 : Int) := by
  have hpow : unitsPerOne = 2 ^ 1074 := by decide +kernel
  rw [congrArg (Nat.cast (R := ℚ)) hpow, Nat.cast_pow, Nat.cast_two, ← zpow_natCast]
  rfl

theorem unitsPerOne_cast_pos : (0 : ℚ) < unitsPerOne := Nat.cast_pos.mpr unitsPerOne_pos

theorem magnitude_mul_unitsPerOne (rank : Nat) : magnitude rank * unitsPerOne = units rank :=
  div_mul_cancel₀ _ unitsPerOne_cast_pos.ne'

theorem magnitude_zero : magnitude 0 = 0 := by
  rw [magnitude, units_zero, Nat.cast_zero, zero_div]

theorem magnitude_lt_magnitude {a b : Nat} (h : a < b) : magnitude a < magnitude b :=
  div_lt_div_of_pos_right (Nat.cast_lt.mpr (units_lt_units h)) unitsPerOne_cast_pos

theorem magnitude_le_magnitude {a b : Nat} (h : a ≤ b) : magnitude a ≤ magnitude b :=
  div_le_div_of_nonneg_right (Nat.cast_le.mpr (units_le_units h)) unitsPerOne_cast_pos.le

theorem magnitude_nonneg (rank : Nat) : 0 ≤ magnitude rank := by
  rw [← magnitude_zero]
  exact magnitude_le_magnitude (Nat.zero_le rank)

theorem magnitude_lt_halfway (rank : Nat) : magnitude rank < halfway rank := by
  have h := magnitude_lt_magnitude (Nat.lt_succ_self rank)
  rw [halfway]
  linarith

theorem halfway_lt_magnitude (rank : Nat) : halfway rank < magnitude (rank + 1) := by
  have h := magnitude_lt_magnitude (Nat.lt_succ_self rank)
  rw [halfway]
  linarith

/-- The gap doubles with every full block of ranks. -/
theorem gap_eq (rank : Nat) : gap rank = 2 ^ (rank / 2 ^ 52 - 1) / unitsPerOne := by
  rw [gap, magnitude, magnitude, units_succ, Nat.cast_add, Nat.cast_pow, Nat.cast_two]
  ring

theorem gap_le_gap {a b : Nat} (h : a ≤ b) : gap a ≤ gap b := by
  have hblock : a / 2 ^ 52 - 1 ≤ b / 2 ^ 52 - 1 :=
    Nat.sub_le_sub_right (Nat.div_le_div_right h) 1
  rw [gap_eq, gap_eq]
  exact div_le_div_of_nonneg_right (pow_le_pow_right₀ one_le_two hblock) unitsPerOne_cast_pos.le

namespace Decimal

/-- The number a decimal says. -/
def value (d : Decimal) : ℚ := d.digits * (10 : ℚ) ^ d.exponent

theorem value_nonneg (d : Decimal) : 0 ≤ d.value := by
  rw [value]
  positivity

/-- A power of ten is a whole number or one over a whole number. -/
theorem ten_zpow_eq (exponent : Int) :
    (10 : ℚ) ^ exponent = 10 ^ exponent.toNat / 10 ^ (-exponent).toNat := by
  rcases Int.le_total 0 exponent with h | h
  · obtain ⟨n, rfl⟩ := Int.eq_ofNat_of_zero_le h
    simp
  · obtain ⟨n, hn⟩ := Int.eq_ofNat_of_zero_le (Int.neg_nonneg_of_nonpos h)
    rw [show exponent = -(n : Int) by omega]
    simp

theorem value_eq_div (d : Decimal) :
    d.value
      = ((d.digits * 10 ^ d.exponent.toNat : Nat) : ℚ) / (10 ^ (-d.exponent).toNat : Nat) := by
  rw [value, ten_zpow_eq]
  push_cast
  ring

/-- The same number on a grid ten times finer. -/
theorem value_mul_ten (n : Nat) (exponent : Int) :
    (⟨n * 10, exponent⟩ : Decimal).value = (⟨n, exponent + 1⟩ : Decimal).value := by
  rw [value, value, zpow_add_one₀ (by norm_num)]
  push_cast
  ring

/-- Moving the point to the right leaves fewer places. -/
theorem value_mul_pow {d : Decimal} {moved rest : Nat}
    (h : d.exponent = -(moved + rest : Int)) : d.value * 10 ^ moved = d.digits / 10 ^ rest := by
  rw [value, h, zpow_neg, zpow_add₀ (by norm_num), zpow_natCast, zpow_natCast]
  field_simp

/-! ## Rounding by value -/

/--
A decimal is read as a step or one below it exactly when it lies below the point
halfway to the next step, or on it if the step is even.
-/
theorem rank_le_iff (d : Decimal) (rank : Nat) :
    d.rank ≤ rank ↔ d.value < halfway rank ∨ d.value = halfway rank ∧ rank % 2 = 0 := by
  have hden : (0 : ℚ) < (10 ^ (-d.exponent).toNat : Nat) := Nat.cast_pos.mpr (ten_pow_pos _)
  have hpos : (0 : ℚ) < 2 * unitsPerOne * (10 ^ (-d.exponent).toNat : Nat) :=
    mul_pos (mul_pos two_pos unitsPerOne_cast_pos) hden
  -- both sides are multiplied by their denominators
  have hvalue (n : Nat) : d.value * (2 * n * (10 ^ (-d.exponent).toNat : Nat))
      = ((2 * (d.digits * 10 ^ d.exponent.toNat * n) : Nat) : ℚ) := by
    rw [value_eq_div, div_mul_eq_mul_div, div_eq_iff hden.ne']
    push_cast
    ring
  have hhalfway : halfway rank * (2 * unitsPerOne * (10 ^ (-d.exponent).toNat : Nat))
      = (((units rank + units (rank + 1)) * 10 ^ (-d.exponent).toNat : Nat) : ℚ) := by
    calc halfway rank * (2 * unitsPerOne * (10 ^ (-d.exponent).toNat : Nat))
        = (magnitude rank * unitsPerOne + magnitude (rank + 1) * unitsPerOne)
          * (10 ^ (-d.exponent).toNat : Nat) := by rw [halfway]; ring
      _ = _ := by
        rw [magnitude_mul_unitsPerOne, magnitude_mul_unitsPerOne, ← Nat.cast_add, ← Nat.cast_mul]
  rw [rank_eq, nearestRank_le_iff (ten_pow_pos _), ← mul_lt_mul_iff_left₀ hpos,
    ← mul_left_inj' hpos.ne', hvalue, hhalfway, Nat.cast_lt, Nat.cast_inj]

/-- A larger decimal is never read as a smaller step. -/
theorem rank_le_rank {d d' : Decimal} (h : d.value ≤ d'.value) : d.rank ≤ d'.rank := by
  rw [rank_le_iff]
  rcases (rank_le_iff d' d'.rank).mp (Nat.le_refl _) with hlt | ⟨heq, heven⟩
  · exact Or.inl (lt_of_le_of_lt h hlt)
  · rcases lt_or_eq_of_le h with hlt | hsame
    · exact Or.inl (lt_of_lt_of_eq hlt heq)
    · exact Or.inr ⟨hsame.trans heq, heven⟩

/-- How a number is written does not matter for how it is read. -/
theorem rank_eq_of_value_eq {d d' : Decimal} (h : d.value = d'.value) : d.rank = d'.rank :=
  Nat.le_antisymm (rank_le_rank h.le) (rank_le_rank h.ge)

theorem rank_le_of_value_le {d : Decimal} {rank : Nat} (h : d.value ≤ magnitude rank) :
    d.rank ≤ rank :=
  (rank_le_iff d rank).mpr (Or.inl (lt_of_le_of_lt h (magnitude_lt_halfway rank)))

theorem le_rank_of_le_value {d : Decimal} {rank : Nat} (h : magnitude rank ≤ d.value) :
    rank ≤ d.rank := by
  cases rank with
  | zero => exact Nat.zero_le _
  | succ below =>
      refine Nat.succ_le_of_lt (Nat.lt_of_not_le fun hle => ?_)
      have hfar := halfway_lt_magnitude below
      rcases (rank_le_iff d below).mp hle with hlt | ⟨heq, _⟩
      · linarith
      · linarith

/-- A decimal that is a step is read as that step. -/
theorem rank_of_value_eq {d : Decimal} {rank : Nat} (h : d.value = magnitude rank) :
    d.rank = rank :=
  Nat.le_antisymm (rank_le_of_value_le h.le) (le_rank_of_le_value h.ge)

theorem value_le_halfway (d : Decimal) : d.value ≤ halfway d.rank := by
  rcases (rank_le_iff d d.rank).mp (Nat.le_refl _) with h | h
  · exact h.le
  · exact h.1.le

theorem halfway_le_value {d : Decimal} {below : Nat} (h : d.rank = below + 1) :
    halfway below ≤ d.value := by
  have hnot := mt (rank_le_iff d below).mpr (by omega)
  exact not_lt.mp fun hlt => hnot (Or.inl hlt)

/-- A decimal is off from the step it is read as by half the distance of the next one at most. -/
theorem abs_value_sub_le (d : Decimal) : |d.value - magnitude d.rank| ≤ gap d.rank / 2 := by
  have hupper := value_le_halfway d
  rw [halfway] at hupper
  rw [abs_sub_le_iff]
  constructor
  · rw [gap]
    linarith
  · cases hrank : d.rank with
    | zero =>
        -- there is nothing below zero to be nearer to
        have hnonneg := value_nonneg d
        have hone := magnitude_nonneg (0 + 1)
        rw [gap, magnitude_zero]
        linarith
    | succ below =>
        -- the gap below a rank is no wider than the one above it
        have hlower := halfway_le_value hrank
        have hwider := gap_le_gap (Nat.le_succ below)
        rw [halfway] at hlower
        rw [gap] at hwider
        linarith

/-- A decimal is read as a step that it is off from by less than half the gap below. -/
theorem rank_of_abs_sub_lt {d : Decimal} {below : Nat}
    (h : |d.value - magnitude (below + 1)| < gap below / 2) : d.rank = below + 1 := by
  obtain ⟨habove, hbelow⟩ := abs_sub_lt_iff.mp h
  have hwider := gap_le_gap (Nat.le_succ below)
  refine Nat.le_antisymm ?_ (Nat.succ_le_of_lt (Nat.lt_of_not_le fun hle => ?_))
  · -- below the midpoint above, since the gap there is no narrower
    rw [rank_le_iff]
    left
    rw [gap, gap] at hwider
    rw [gap] at habove
    rw [halfway]
    linarith
  · -- and above the midpoint below, where the tie is excluded too
    rw [gap] at hbelow
    rcases (rank_le_iff d below).mp hle with hlt | ⟨heq, _⟩
    · rw [halfway] at hlt
      linarith
    · rw [halfway] at heq
      linarith

/-- **Two decimals that are read as the same step are close.** -/
theorem value_sub_le_gap {d d' : Decimal} (h : d.rank = d'.rank) :
    d.value - d'.value ≤ gap d'.rank := by
  have hfirst := (abs_sub_le_iff.mp (abs_value_sub_le d)).1
  have hsecond := (abs_sub_le_iff.mp (abs_value_sub_le d')).2
  rw [h] at hfirst
  linarith

end Decimal

end DeskCalculator
