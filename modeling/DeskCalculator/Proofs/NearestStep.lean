import DeskCalculator.Proofs.ExactValue
import Mathlib.Algebra.Order.Ring.Abs

/-!
# The nearest step

Correct rounding can be said without a word about how it is computed: the step a
number is rounded to is at least as near as every other one, and of two steps that
are equally near it is the one of even rank. There is only one such step.

The ladder goes on above the largest finite double, and this is the rule of
overflow: a number has a finite double as long as the nearest step is one, so up
to the point halfway to the first step that is not.

**Reading is rounding to the nearest.** A decimal is read as the nearest step, and
the nearest step is the one it is read as.
-/

namespace DeskCalculator

/-- No step is nearer to the number, and only if the step is even is another one as near. -/
structure IsNearest (x : ℚ) (rank : Nat) : Prop where
  le : ∀ other, |x - magnitude rank| ≤ |x - magnitude other|
  even : ∀ other, other ≠ rank → |x - magnitude rank| = |x - magnitude other| → rank % 2 = 0

/-! ## Comparing two distances -/

/-- Of two points the lower one is at least as near up to the middle between them. -/
theorem abs_sub_le_abs_sub_iff_of_lt {x a b : ℚ} (h : a < b) :
    |x - a| ≤ |x - b| ↔ 2 * x ≤ a + b := by
  rw [← sq_le_sq]
  constructor
  · intro hle
    have hmul : 0 ≤ (b - a) * (a + b - 2 * x) := by linarith
    have hmiddle := nonneg_of_mul_nonneg_right hmul (sub_pos.mpr h)
    linarith
  · intro hle
    have hmul : 0 ≤ (b - a) * (a + b - 2 * x) :=
      mul_nonneg (sub_pos.mpr h).le (sub_nonneg.mpr hle)
    linarith

/-- From the middle on the upper one is. -/
theorem abs_sub_le_abs_sub_iff_of_gt {x a b : ℚ} (h : a < b) :
    |x - b| ≤ |x - a| ↔ a + b ≤ 2 * x := by
  have hneg := abs_sub_le_abs_sub_iff_of_lt (x := -x) (neg_lt_neg h)
  rw [neg_sub_neg, neg_sub_neg, abs_sub_comm, abs_sub_comm a x] at hneg
  rw [hneg]
  constructor <;> intro _ <;> linarith

namespace IsNearest

variable {x : ℚ} {rank other : Nat}

theorem rank_le (h : IsNearest x rank) (h' : IsNearest x other) : other ≤ rank := by
  by_contra hgreater
  have hlt : rank < other := Nat.lt_of_not_le hgreater
  have hsame : |x - magnitude rank| = |x - magnitude other| := le_antisymm (h.le other) (h'.le rank)
  have heven := h.even other hlt.ne' hsame
  have heven' := h'.even rank hlt.ne hsame.symm
  -- two even steps have one between them, which is nearer
  have hbetween : rank + 1 < other := by omega
  have hupper := (abs_sub_le_abs_sub_iff_of_lt (magnitude_lt_magnitude (Nat.lt_succ_self rank))).mp
    (h.le (rank + 1))
  have hlower := (abs_sub_le_abs_sub_iff_of_gt (magnitude_lt_magnitude hlt)).mp (h'.le rank)
  have hnearer := magnitude_lt_magnitude hbetween
  linarith

/-- **There is only one nearest step.** -/
theorem unique (h : IsNearest x rank) (h' : IsNearest x other) : rank = other :=
  Nat.le_antisymm (h'.rank_le h) (h.rank_le h')

end IsNearest

/-! ## The nearest step is the one that is read -/

/-- The distance in units is a distance of numbers, both multiplied by the denominator. -/
theorem cast_distance (num den rank : Nat) :
    (distance num den rank : ℚ) = |(num : ℚ) - units rank * den| := by
  rw [distance, ← Nat.cast_mul]
  rcases Nat.le_total num (units rank * den) with hle | hle
  · have hcast : (num : ℚ) ≤ (units rank * den : Nat) := Nat.cast_le.mpr hle
    rw [Nat.sub_eq_zero_of_le hle, Nat.zero_add, Nat.cast_sub hle,
      abs_of_nonpos (sub_nonpos.mpr hcast), neg_sub]
  · have hcast : ((units rank * den : Nat) : ℚ) ≤ num := Nat.cast_le.mpr hle
    rw [Nat.sub_eq_zero_of_le hle, Nat.add_zero, Nat.cast_sub hle,
      abs_of_nonneg (sub_nonneg.mpr hcast)]

namespace Decimal

/-- One over the unit in which the distances of a decimal from the steps are counted. -/
def scale (d : Decimal) : ℚ := unitsPerOne * (10 ^ (-d.exponent).toNat : Nat)

theorem scale_pos (d : Decimal) : 0 < d.scale :=
  mul_pos unitsPerOne_cast_pos (Nat.cast_pos.mpr (ten_pow_pos _))

/-- How far a decimal is from a step, in that unit. -/
def distanceTo (d : Decimal) (rank : Nat) : Nat :=
  distance (d.digits * 10 ^ d.exponent.toNat * unitsPerOne) (10 ^ (-d.exponent).toNat) rank

theorem abs_value_sub (d : Decimal) (rank : Nat) :
    |d.value - magnitude rank| = d.distanceTo rank / d.scale := by
  have hden : ((10 ^ (-d.exponent).toNat : Nat) : ℚ) ≠ 0 :=
    Nat.cast_ne_zero.mpr (ten_pow_pos _).ne'
  have hvalue : d.value * d.scale = (d.digits * 10 ^ d.exponent.toNat * unitsPerOne : Nat) := by
    rw [scale, value_eq_div, mul_left_comm, div_mul_cancel₀ _ hden, mul_comm, ← Nat.cast_mul]
  have hmagnitude : magnitude rank * d.scale
      = units rank * (10 ^ (-d.exponent).toNat : Nat) := by
    rw [scale, ← mul_assoc, magnitude_mul_unitsPerOne]
  rw [eq_div_iff d.scale_pos.ne', distanceTo, cast_distance, ← hvalue, ← hmagnitude, ← sub_mul,
    abs_mul, abs_of_pos d.scale_pos]

theorem distanceTo_rank (d : Decimal) (other : Nat) :
    d.distanceTo d.rank ≤ d.distanceTo other
      ∧ (d.distanceTo d.rank = d.distanceTo other → other = d.rank ∨ d.rank % 2 = 0) :=
  nearestRank_nearest (ten_pow_pos _) other

/-- **A decimal is read as the nearest step.** -/
theorem isNearest_rank (d : Decimal) : IsNearest d.value d.rank where
  le := by
    intro other
    obtain ⟨hle, -⟩ := d.distanceTo_rank other
    rw [abs_value_sub, abs_value_sub]
    exact div_le_div_of_nonneg_right (Nat.cast_le.mpr hle) d.scale_pos.le
  even := by
    intro other hne heq
    obtain ⟨-, htie⟩ := d.distanceTo_rank other
    rw [abs_value_sub, abs_value_sub, div_left_inj' d.scale_pos.ne', Nat.cast_inj] at heq
    exact (htie heq).resolve_left hne

theorem isNearest_iff {d : Decimal} {rank : Nat} : IsNearest d.value rank ↔ d.rank = rank := by
  constructor
  · intro h
    exact d.isNearest_rank.unique h
  · rintro rfl
    exact d.isNearest_rank

/-! ## Overflow -/

theorem halfway_eq {rank high low : Nat}
    (h : units rank + units (rank + 1) + 2 * low * unitsPerOne = 2 * high * unitsPerOne) :
    halfway rank = high - low := by
  have hsum : (units rank : ℚ) + units (rank + 1) + 2 * low * unitsPerOne
      = 2 * high * unitsPerOne := by
    exact_mod_cast h
  rw [← magnitude_mul_unitsPerOne, ← magnitude_mul_unitsPerOne, ← add_mul, ← add_mul,
    mul_left_inj' unitsPerOne_cast_pos.ne'] at hsum
  rw [halfway]
  linarith

/-- Halfway from the largest finite double to the next step. -/
theorem halfway_last : halfway (finiteRanks - 1) = 2 ^ 1024 - 2 ^ 970 := by
  have hunits : units (finiteRanks - 1) + units (finiteRanks - 1 + 1) + 2 * 2 ^ 970 * unitsPerOne
      = 2 * 2 ^ 1024 * unitsPerOne := by
    decide +kernel
  rw [halfway_eq hunits, Nat.cast_pow, Nat.cast_pow, Nat.cast_ofNat]

/-- A decimal is read as a finite double up to that point, which overflows itself. -/
theorem rank_lt_finiteRanks_iff (d : Decimal) :
    d.rank < finiteRanks ↔ d.value < 2 ^ 1024 - 2 ^ 970 := by
  have hpos : 0 < finiteRanks := by decide +kernel
  have hodd : (finiteRanks - 1) % 2 ≠ 0 := by decide +kernel
  rw [Nat.lt_iff_le_pred hpos, rank_le_iff, halfway_last]
  refine ⟨fun h => ?_, Or.inl⟩
  rcases h with hlt | ⟨_, heven⟩
  · exact hlt
  · exact absurd heven hodd

end Decimal

end DeskCalculator
