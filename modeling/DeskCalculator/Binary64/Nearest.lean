import DeskCalculator.Binary64.Ladder
import Mathlib.Algebra.Group.Nat.Defs

/-!
# Rounding finds the nearest step

The ladder rises: `units` is strictly increasing, so no two ranks are the same
magnitude. Any number of units lies between the step `rankBelow` gives and the
next one, which makes these two the only candidates for the nearest step.

**Nearest.** No step is nearer to a quotient than the one `nearestRank` gives,
and of two that are equally near it gives the even one.

**Exact.** A quotient that is a step is rounded to that step.

**Monotone.** A larger quotient is never rounded to a smaller step.
-/

namespace DeskCalculator

/-! ## The ladder rises -/

theorem units_eq (rank : Nat) :
    units rank = (rank - (rank / 2 ^ 52 - 1) * 2 ^ 52) * 2 ^ (rank / 2 ^ 52 - 1) := rfl

/-- Each step is above the one before it by a unit, doubled once for every full block of ranks. -/
theorem units_succ (rank : Nat) : units (rank + 1) = units rank + 2 ^ (rank / 2 ^ 52 - 1) := by
  rw [units_eq, units_eq]
  have block : rank / 2 ^ 52 ≤ (rank + 1) / 2 ^ 52 ∧ (rank + 1) / 2 ^ 52 ≤ rank / 2 ^ 52 + 1 := by
    omega
  by_cases same : (rank + 1) / 2 ^ 52 - 1 = rank / 2 ^ 52 - 1
  · -- the next rank is in the same block: one digit more
    rw [same, show rank + 1 - (rank / 2 ^ 52 - 1) * 2 ^ 52
      = rank - (rank / 2 ^ 52 - 1) * 2 ^ 52 + 1 by omega, Nat.add_mul, Nat.one_mul]
  · -- it is the first of a new block, where the digits are halved
    obtain ⟨shift, hshift⟩ : ∃ shift, rank / 2 ^ 52 = shift + 1 := ⟨rank / 2 ^ 52 - 1, by omega⟩
    rw [show (rank + 1) / 2 ^ 52 - 1 = shift + 1 by omega, hshift,
      show rank + 1 - (shift + 1) * 2 ^ 52 = 2 ^ 52 by omega,
      show shift + 1 - 1 = shift by omega,
      show rank - shift * 2 ^ 52 = 2 ^ 53 - 1 by omega, Nat.pow_succ]
    omega

theorem units_lt_units_succ (rank : Nat) : units rank < units (rank + 1) := by
  rw [units_succ]
  exact Nat.lt_add_of_pos_right (Nat.two_pow_pos _)

theorem units_lt_units {a b : Nat} (h : a < b) : units a < units b := by
  induction h with
  | refl => exact units_lt_units_succ a
  | step _ ih => exact Nat.lt_trans ih (units_lt_units_succ _)

theorem units_le_units {a b : Nat} (h : a ≤ b) : units a ≤ units b := by
  rcases Nat.eq_or_lt_of_le h with rfl | h
  · exact Nat.le_refl _
  · exact Nat.le_of_lt (units_lt_units h)

theorem units_lt_units_iff {a b : Nat} : units a < units b ↔ a < b := by
  constructor
  · intro h
    rcases Nat.lt_or_ge a b with hab | hab
    · exact hab
    · exact absurd (units_le_units hab) (Nat.not_le.2 h)
  · exact units_lt_units

theorem units_le_units_iff {a b : Nat} : units a ≤ units b ↔ a ≤ b := by
  rw [← Nat.not_lt, units_lt_units_iff, Nat.not_lt]

theorem units_injective {a b : Nat} (h : units a = units b) : a = b := by
  rcases Nat.lt_trichotomy a b with hab | hab | hab
  · exact absurd h (Nat.ne_of_lt (units_lt_units hab))
  · exact hab
  · exact absurd h.symm (Nat.ne_of_lt (units_lt_units hab))

@[simp] theorem units_zero : units 0 = 0 := rfl

/-! ## The two steps around a number of units -/

theorem rankBelow_def (n : Nat) :
    rankBelow n = (n.log2 - 52) * 2 ^ 52 + n / 2 ^ (n.log2 - 52) := rfl

/-- The leading binary digits of `n` that a step can hold, and the block of ranks it is in. -/
theorem rankBelow_eq (n : Nat) :
    rankBelow n / 2 ^ 52 - 1 = n.log2 - 52 ∧
      rankBelow n - (n.log2 - 52) * 2 ^ 52 = n / 2 ^ (n.log2 - 52) := by
  rw [rankBelow_def]
  rcases Nat.lt_or_ge n.log2 53 with small | large
  · -- every digit of the number fits, so its rank is the number itself
    have hn : n < 2 ^ 53 := by
      rcases Nat.eq_zero_or_pos n with rfl | hpos
      · decide
      · exact (Nat.log2_lt (by omega)).1 small
    rw [show n.log2 - 52 = 0 by omega, Nat.pow_zero, Nat.div_one]
    omega
  · have hpos : n ≠ 0 := by
      rintro rfl
      simp at large
    obtain ⟨shift, hshift⟩ : ∃ shift, n.log2 = shift + 52 := ⟨n.log2 - 52, by omega⟩
    have low : 2 ^ 52 * 2 ^ shift ≤ n := by
      rw [← Nat.pow_add, Nat.add_comm, ← hshift]
      exact Nat.log2_self_le hpos
    have high : n < 2 ^ 53 * 2 ^ shift := by
      rw [← Nat.pow_add, show 53 + shift = n.log2 + 1 by omega]
      exact Nat.lt_log2_self
    have digits_ge : 2 ^ 52 ≤ n / 2 ^ shift := (Nat.le_div_iff_mul_le (Nat.two_pow_pos _)).2 low
    have digits_lt : n / 2 ^ shift < 2 ^ 53 := (Nat.div_lt_iff_lt_mul (Nat.two_pow_pos _)).2 high
    rw [hshift, show shift + 52 - 52 = shift by omega]
    generalize n / 2 ^ shift = digits at digits_ge digits_lt
    omega

theorem units_rankBelow (n : Nat) :
    units (rankBelow n) = n / 2 ^ (n.log2 - 52) * 2 ^ (n.log2 - 52) := by
  obtain ⟨block, digits⟩ := rankBelow_eq n
  rw [units_eq, block, digits]

theorem units_rankBelow_le (n : Nat) : units (rankBelow n) ≤ n := by
  rw [units_rankBelow]
  exact Nat.div_mul_le_self _ _

theorem lt_units_rankBelow_succ (n : Nat) : n < units (rankBelow n + 1) := by
  rw [units_succ, units_rankBelow, (rankBelow_eq n).1]
  exact Nat.lt_div_mul_add (Nat.two_pow_pos _)

/-- A quotient is at least the step below it, and less than the next one. -/
theorem rankBelow_bounds {num den : Nat} (hden : 0 < den) :
    units (rankBelow (num / den)) * den ≤ num ∧ num < units (rankBelow (num / den) + 1) * den :=
  ⟨(Nat.le_div_iff_mul_le hden).1 (units_rankBelow_le _),
    (Nat.div_lt_iff_lt_mul hden).1 (lt_units_rankBelow_succ _)⟩

/-! ## Rounding to the nearest step -/

/--
A quotient is rounded to a step or below it exactly when it lies below the
halfway point to the next step, or on it if the step is even.
-/
theorem nearestRank_le_iff {num den : Nat} (hden : 0 < den) (rank : Nat) :
    nearestRank num den ≤ rank ↔
      2 * num < (units rank + units (rank + 1)) * den ∨
        2 * num = (units rank + units (rank + 1)) * den ∧ rank % 2 = 0 := by
  obtain ⟨hlow, hhigh⟩ := @rankBelow_bounds num den hden
  have near : nearestRank num den = rankBelow (num / den) ∨
      nearestRank num den = rankBelow (num / den) + 1 := by
    unfold nearestRank
    dsimp only
    split <;> simp
  have step := Nat.mul_lt_mul_of_pos_right (units_lt_units_succ rank) hden
  -- only at the step below the ratio itself does the midpoint decide
  rcases Nat.lt_trichotomy rank (rankBelow (num / den)) with below | same | above
  · have h : units (rank + 1) * den ≤ units (rankBelow (num / den)) * den :=
      Nat.mul_le_mul_right den (units_le_units below)
    rw [Nat.add_mul]
    omega
  · subst same
    unfold nearestRank
    dsimp only
    split <;> omega
  · have h : units (rankBelow (num / den) + 1) * den ≤ units rank * den :=
      Nat.mul_le_mul_right den (units_le_units above)
    rw [Nat.add_mul]
    omega

/-- A larger quotient is never rounded to a smaller step. -/
theorem nearestRank_le_nearestRank {num den num' den' : Nat} (hden : 0 < den) (hden' : 0 < den')
    (h : num * den' ≤ num' * den) : nearestRank num den ≤ nearestRank num' den' := by
  rw [nearestRank_le_iff hden]
  have bound := (nearestRank_le_iff hden' (nearestRank num' den')).1 (Nat.le_refl _)
  generalize nearestRank num' den' = rank at bound
  generalize units rank + units (rank + 1) = twice at bound ⊢
  rcases bound with bound | ⟨bound, even⟩
  · left
    have h1 := Nat.mul_lt_mul_of_pos_right bound hden
    have h2 : 2 * num * den' ≤ 2 * num' * den := by
      rw [Nat.mul_assoc, Nat.mul_assoc]
      exact Nat.mul_le_mul_left 2 h
    refine Nat.lt_of_mul_lt_mul_right (a := den') ?_
    calc 2 * num * den' ≤ 2 * num' * den := h2
      _ < twice * den' * den := h1
      _ = twice * den * den' := by rw [Nat.mul_assoc, Nat.mul_comm den' den, ← Nat.mul_assoc]
  · -- the greater ratio is the midpoint, and the even rank is still right for a less one
    have h2 : 2 * num * den' ≤ twice * den * den' := by
      calc 2 * num * den' = 2 * (num * den') := Nat.mul_assoc ..
        _ ≤ 2 * (num' * den) := Nat.mul_le_mul_left 2 h
        _ = 2 * num' * den := (Nat.mul_assoc ..).symm
        _ = twice * den' * den := by rw [bound]
        _ = twice * den * den' := by rw [Nat.mul_assoc, Nat.mul_comm den' den, ← Nat.mul_assoc]
    have h3 := Nat.le_of_mul_le_mul_right h2 hden'
    omega

/-- A quotient that is a step is rounded to that step. -/
theorem nearestRank_units (rank : Nat) {den : Nat} (hden : 0 < den) :
    nearestRank (units rank * den) den = rank := by
  apply Nat.le_antisymm
  · -- a number of units on the ladder is under the midpoint above it
    rw [nearestRank_le_iff hden]
    left
    have := Nat.mul_lt_mul_of_pos_right (units_lt_units_succ rank) hden
    rw [Nat.add_mul]
    omega
  · cases rank with
    | zero => exact Nat.zero_le _
    | succ rank =>
      -- and over the midpoint below it
      refine Nat.succ_le_of_lt (Nat.lt_of_not_le fun h => ?_)
      rw [nearestRank_le_iff hden] at h
      have := Nat.mul_lt_mul_of_pos_right (units_lt_units_succ rank) hden
      rw [Nat.add_mul] at h
      omega

/-- How far a quotient is from a step, in units multiplied by the denominator. -/
def distance (num den rank : Nat) : Nat := (num - units rank * den) + (units rank * den - num)

/-- No step is nearer than the one that rounding gives, and of two equally near it is the even. -/
theorem nearestRank_nearest {num den : Nat} (hden : 0 < den) (rank : Nat) :
    distance num den (nearestRank num den) ≤ distance num den rank ∧
      (distance num den (nearestRank num den) = distance num den rank →
        rank = nearestRank num den ∨ nearestRank num den % 2 = 0) := by
  have upper := (@nearestRank_le_iff num den hden (nearestRank num den)).1 (Nat.le_refl _)
  have lower : ∀ r, r + 1 = nearestRank num den →
      (units r + units (r + 1)) * den < 2 * num ∨
        2 * num = (units r + units (r + 1)) * den ∧ r % 2 = 1 := by
    intro r hr
    have := mt (@nearestRank_le_iff num den hden r).2 (by omega)
    omega
  generalize nearestRank num den = near at upper lower
  unfold distance
  rcases Nat.lt_trichotomy rank near with below | same | above
  · -- the given rank is below, so the midpoint under the nearest one counts
    obtain ⟨r, rfl⟩ : ∃ r, near = r + 1 := ⟨near - 1, by omega⟩
    have h1 := Nat.mul_le_mul_right den (units_le_units (Nat.le_of_lt_succ below))
    have h2 := Nat.mul_lt_mul_of_pos_right (units_lt_units_succ r) hden
    have h3 := lower r rfl
    rw [Nat.add_mul] at h3 upper
    have h4 := Nat.mul_lt_mul_of_pos_right (units_lt_units_succ (r + 1)) hden
    omega
  · subst same
    simp
  · -- it is above, so the midpoint over the nearest one does
    have h1 : units (near + 1) * den ≤ units rank * den :=
      Nat.mul_le_mul_right den (units_le_units above)
    have h2 := Nat.mul_lt_mul_of_pos_right (units_lt_units_succ near) hden
    rw [Nat.add_mul] at upper
    cases near with
    | zero =>
      rw [units_zero] at upper ⊢
      omega
    | succ r =>
      have h3 := lower r rfl
      have h4 := Nat.mul_lt_mul_of_pos_right (units_lt_units_succ r) hden
      rw [Nat.add_mul] at h3
      omega

end DeskCalculator
