import DeskCalculator.Proofs.ExactValue
import Mathlib.Tactic.IntervalCases

/-!
# No fewer digits read back

The decimal that is printed for a double is looked for on ever finer grids, and
on each grid only the two neighbours of the double are tried. Nothing is missed:
the numbers that read back form an interval around the double, so a grid with any
such number has one next to the double; and on the grids coarser than the first
one tried even the smallest number is too large.

**The coarsest grid.** No decimal that reads back as the double lies on a coarser
grid than the printed one. So the printed digits do not end in a zero, and no
other decimal that reads back has fewer of them.
-/

namespace DeskCalculator.Decimal

/-! ## One grid -/

theorem value_le_magnitude_iff (n : Nat) (exponent : Int) (rank : Nat) :
    (⟨n, exponent⟩ : Decimal).value ≤ magnitude rank ↔
      n * (unitsPerOne * 10 ^ exponent.toNat) ≤ units rank * 10 ^ (-exponent).toNat := by
  have hden : (0 : ℚ) < (10 ^ (-exponent).toNat : Nat) := Nat.cast_pos.mpr (ten_pow_pos _)
  rw [value_eq_div, magnitude, div_le_div_iff₀ hden unitsPerOne_cast_pos, ← Nat.cast_mul,
    ← Nat.cast_mul, Nat.cast_le, Nat.mul_assoc, Nat.mul_comm (10 ^ _) unitsPerOne]

/-- The point of a grid that is next below the step, or on it. -/
def floorOnGrid (rank : Nat) (exponent : Int) : Nat :=
  units rank * 10 ^ (-exponent).toNat / (unitsPerOne * 10 ^ exponent.toNat)

theorem value_le_magnitude_iff_le_floorOnGrid {n : Nat} {exponent : Int} {rank : Nat} :
    (⟨n, exponent⟩ : Decimal).value ≤ magnitude rank ↔ n ≤ floorOnGrid rank exponent := by
  have hden : 0 < unitsPerOne * 10 ^ exponent.toNat := Nat.mul_pos unitsPerOne_pos (ten_pow_pos _)
  rw [value_le_magnitude_iff, floorOnGrid, Nat.le_div_iff_mul_le hden]

theorem value_le_value_iff {n m : Nat} (exponent : Int) :
    (⟨n, exponent⟩ : Decimal).value ≤ (⟨m, exponent⟩ : Decimal).value ↔ n ≤ m := by
  have hpow : (0 : ℚ) < 10 ^ exponent := by positivity
  rw [value, value, mul_le_mul_iff_left₀ hpow, Nat.cast_le]

theorem exponent_of_onGrid? {rank : Nat} {exponent : Int} {d : Decimal}
    (h : onGrid? rank exponent = some d) : d.exponent = exponent := by
  unfold onGrid? at h
  dsimp only at h
  split at h
  · split at h <;> (cases h; rfl)
  · split at h
    · cases h; rfl
    · cases h

/-- **If any point of a grid reads back, one next to the step is found.** -/
theorem onGrid?_isSome {n : Nat} {exponent : Int} {rank : Nat}
    (h : (⟨n, exponent⟩ : Decimal).rank = rank) : (onGrid? rank exponent).isSome := by
  have hnext : (⟨floorOnGrid rank exponent, exponent⟩ : Decimal).rank = rank ∨
      (⟨floorOnGrid rank exponent + 1, exponent⟩ : Decimal).rank = rank := by
    rcases Nat.lt_or_ge (floorOnGrid rank exponent) n with hlt | hge
    · -- the point lies above the step, and the upper neighbour between the two
      right
      have habove : magnitude rank ≤ (⟨floorOnGrid rank exponent + 1, exponent⟩ : Decimal).value :=
        (not_le.mp fun hle => Nat.not_succ_le_self _
          (value_le_magnitude_iff_le_floorOnGrid.mp hle)).le
      have hupper := rank_le_rank ((value_le_value_iff exponent).mpr (Nat.succ_le_of_lt hlt))
      rw [h] at hupper
      exact Nat.le_antisymm hupper (le_rank_of_le_value habove)
    · left
      have hbelow :=
        value_le_magnitude_iff_le_floorOnGrid.mpr (Nat.le_refl (floorOnGrid rank exponent))
      have hlower := rank_le_rank ((value_le_value_iff exponent).mpr hge)
      rw [h] at hlower
      exact Nat.le_antisymm (rank_le_of_value_le hbelow) hlower
  unfold onGrid?
  dsimp only
  split
  · split <;> rfl
  · next hnot =>
    split
    · rfl
    · next hnot' => exact absurd hnext (not_or.mpr ⟨hnot, hnot'⟩)

/-! ## The grids that are not tried -/

theorem two_zpow_le_ten_zpow {bits : Int} (h : bits ≤ 1024) :
    (2 : ℚ) ^ (bits + 1) ≤ 10 ^ (bits * 3 / 10 + 3) := by
  -- ten binary digits are a little more than three decimal ones
  obtain ⟨q, s, rfl, hs, hs'⟩ : ∃ q s : Int, bits = 10 * q + s ∧ 0 ≤ s ∧ s < 10 :=
    ⟨bits / 10, bits % 10, by omega, by omega, by omega⟩
  have hratio : (1024 : ℚ) ^ q ≤ 12 * 1000 ^ q := by
    have hle : ((128 : ℚ) / 125) ^ q ≤ (128 / 125) ^ (102 : Int) :=
      zpow_le_zpow_right₀ (by norm_num) (by omega)
    have hbound : ((128 : ℚ) / 125) ^ (102 : Int) ≤ 12 := by norm_num
    have hpos : (0 : ℚ) < 1000 ^ q := by positivity
    calc (1024 : ℚ) ^ q = (128 / 125) ^ q * 1000 ^ q := by rw [← mul_zpow]; norm_num
      _ ≤ 12 * 1000 ^ q := mul_le_mul_of_nonneg_right (hle.trans hbound) hpos.le
  have hrest : (12 : ℚ) * 2 ^ (s + 1) ≤ 10 ^ (s * 3 / 10 + 3) := by
    interval_cases s <;> norm_num
  calc (2 : ℚ) ^ (10 * q + s + 1) = 1024 ^ q * 2 ^ (s + 1) := by
        rw [show 10 * q + s + 1 = 10 * q + (s + 1) by omega, zpow_add₀ two_ne_zero, zpow_mul]
        norm_num
    _ ≤ 12 * 1000 ^ q * 2 ^ (s + 1) := mul_le_mul_of_nonneg_right hratio (by positivity)
    _ = 1000 ^ q * (12 * 2 ^ (s + 1)) := by ring
    _ ≤ 1000 ^ q * 10 ^ (s * 3 / 10 + 3) := mul_le_mul_of_nonneg_left hrest (by positivity)
    _ = 10 ^ ((10 * q + s) * 3 / 10 + 3) := by
        rw [show (10 * q + s) * 3 / 10 + 3 = 3 * q + (s * 3 / 10 + 3) by omega,
          zpow_add₀ (by norm_num) (3 * q), zpow_mul]
        norm_num

/-- The step after a positive one is at most twice as high. -/
theorem magnitude_succ_le {rank : Nat} (h : 0 < rank) :
    magnitude (rank + 1) ≤ 2 * magnitude rank := by
  have hunits : units (rank + 1) ≤ 2 * units rank := by
    have hdigits : 1 ≤ rank - (rank / 2 ^ 52 - 1) * 2 ^ 52 := by omega
    have hgap := Nat.mul_le_mul_right (2 ^ (rank / 2 ^ 52 - 1)) hdigits
    rw [Nat.one_mul, ← units_eq] at hgap
    rw [units_succ]
    omega
  rw [magnitude, magnitude, ← mul_div_assoc]
  refine div_le_div_of_nonneg_right ?_ unitsPerOne_cast_pos.le
  exact_mod_cast hunits

/-- A grid coarser than the first one tried starts above the next step. -/
theorem magnitude_succ_le_ten_zpow {rank : Nat} (hpos : 0 < rank) (hfinite : rank < finiteRanks)
    {exponent : Int} (h : coarsestExponent rank < exponent) :
    magnitude (rank + 1) ≤ 10 ^ exponent := by
  have hne : units rank ≠ 0 := Nat.ne_of_gt (units_lt_units hpos)
  have hbits (bits : Nat) (h : units rank < 2 ^ bits) : (units rank).log2 < bits :=
    (Nat.log2_lt hne).mpr h
  have hlog : (units rank).log2 < 2098 := by
    have hbelow := units_lt_units hfinite
    have htop : 2 ^ 1024 * unitsPerOne = 2 ^ 2098 := by decide +kernel
    rw [units_finiteRanks, htop] at hbelow
    exact hbits 2098 hbelow
  have hunits : (units rank : ℚ) ≤ 2 ^ ((units rank).log2 + 1 : Int) := by
    exact_mod_cast (Nat.lt_log2_self (n := units rank)).le
  have hmagnitude : magnitude rank ≤ 2 ^ ((units rank).log2 - 1073 : Int) := by
    rw [magnitude, div_le_iff₀ unitsPerOne_cast_pos, unitsPerOne_cast, ← zpow_add₀ two_ne_zero]
    rwa [show ((units rank).log2 - 1073 : Int) + 1074 = (units rank).log2 + 1 by omega]
  unfold coarsestExponent at h
  dsimp only at h
  -- a power of two is compared with one of ten, three tenths of the exponent
  calc magnitude (rank + 1) ≤ 2 * magnitude rank := magnitude_succ_le hpos
    _ ≤ 2 ^ ((units rank).log2 - 1073 + 1 : Int) := by
        rw [zpow_add_one₀ two_ne_zero]
        linarith
    _ ≤ 10 ^ (((units rank).log2 - 1073 : Int) * 3 / 10 + 3) := two_zpow_le_ten_zpow (by omega)
    _ ≤ 10 ^ exponent := zpow_le_zpow_right₀ (by norm_num) (by omega)

/-- On a grid coarser than the first one tried no point reads back. -/
theorem rank_ne_of_coarsestExponent_lt {rank : Nat} (hpos : 0 < rank) (hfinite : rank < finiteRanks)
    {exponent : Int} (h : coarsestExponent rank < exponent) (n : Nat) :
    (⟨n, exponent⟩ : Decimal).rank ≠ rank := by
  intro hrank
  rcases Nat.eq_zero_or_pos n with rfl | hn
  · rw [rank_of_digits_eq_zero rfl] at hrank
    omega
  · have hone : (1 : ℚ) ≤ n := by exact_mod_cast hn
    -- already the first multiple is at the next double or past it
    have hfirst : magnitude (rank + 1) ≤ (⟨n, exponent⟩ : Decimal).value :=
      (magnitude_succ_le_ten_zpow hpos hfinite h).trans
        (le_mul_of_one_le_left (by positivity) hone)
    have hle := le_rank_of_le_value hfirst
    omega

/-! ## The search -/

theorem shortest_eq (rank : Nat) : shortest rank =
    ((List.range (coarsestExponent rank - finestExponent + 1).toNat).findSome?
      fun step : Nat => onGrid? rank (coarsestExponent rank - step)).getD (exact rank) := rfl

/-- A search through the first numbers stops at a hit no later than any other. -/
theorem findSome?_range {α : Type} {f : Nat → Option α} {steps step : Nat} (hstep : step < steps)
    (hhit : (f step).isSome) :
    ∃ first found, first ≤ step ∧ f first = some found
      ∧ (List.range steps).findSome? f = some found := by
  cases hsearch : (List.range steps).findSome? f with
  | none =>
      have hnone := List.findSome?_eq_none_iff.mp hsearch step (List.mem_range.mpr hstep)
      rw [hnone] at hhit
      exact absurd hhit Bool.false_ne_true
  | some found =>
      obtain ⟨before, first, after, hrange, hfirst, hbefore⟩ :=
        List.findSome?_eq_some_iff.mp hsearch
      refine ⟨first, found, ?_, hfirst, rfl⟩
      have hmem := List.mem_range.mpr hstep
      have hsorted := List.pairwise_lt_range (n := steps)
      rw [hrange] at hmem hsorted
      -- before the first hit there is none, and behind it every step is later
      rcases List.mem_append.mp hmem with hearly | hmem
      · rw [hbefore step hearly] at hhit
        exact absurd hhit Bool.false_ne_true
      · rcases List.mem_cons.mp hmem with rfl | hlate
        · exact Nat.le_refl _
        · exact (List.rel_of_pairwise_cons (List.pairwise_append.mp hsorted).2.1 hlate).le

/-- **No decimal that reads back lies on a coarser grid than the printed one.** -/
theorem le_exponent_shortest {rank : Nat} (hpos : 0 < rank) (hfinite : rank < finiteRanks)
    {n : Nat} {exponent : Int} (hfinest : finestExponent ≤ exponent)
    (h : (⟨n, exponent⟩ : Decimal).rank = rank) : exponent ≤ (shortest rank).exponent := by
  have hcoarsest : exponent ≤ coarsestExponent rank :=
    not_lt.mp fun hlt => rank_ne_of_coarsestExponent_lt hpos hfinite hlt n h
  -- the step at which the search comes to this grid, unless it has stopped before
  obtain ⟨step, hstep⟩ := Int.eq_ofNat_of_zero_le (Int.sub_nonneg_of_le hcoarsest)
  have hgrid : coarsestExponent rank - step = exponent := by omega
  have hhit := onGrid?_isSome h
  rw [← hgrid] at hhit
  have hsteps : step < (coarsestExponent rank - finestExponent + 1).toNat := by omega
  obtain ⟨first, found, hfirst, honGrid, hsearch⟩ :=
    findSome?_range (f := fun step : Nat => onGrid? rank (coarsestExponent rank - step))
      hsteps hhit
  rw [shortest_eq, hsearch, Option.getD_some, exponent_of_onGrid? honGrid]
  omega

theorem exact_eq (rank : Nat) : exact rank = ⟨units rank * Nat.pow 5 1074, finestExponent⟩ := rfl

theorem finestExponent_le {rank : Nat} (hpos : 0 < rank) (hfinite : rank < finiteRanks) :
    finestExponent ≤ (shortest rank).exponent := by
  have hexact := rank_exact rank
  rw [exact_eq] at hexact
  exact le_exponent_shortest hpos hfinite (Int.le_refl _) hexact

/-- Without a zero at its end a decimal is the same number on a coarser grid. -/
theorem rank_of_mod_ten {d : Decimal} (h : d.digits % 10 = 0) :
    (⟨d.digits / 10, d.exponent + 1⟩ : Decimal).rank = d.rank := by
  obtain ⟨digits, exponent⟩ := d
  rw [← rank_eq_of_value_eq (value_mul_ten _ _), Nat.div_mul_cancel (Nat.dvd_of_mod_eq_zero h)]

/-- **The printed digits do not end in a zero.** -/
theorem digits_shortest_mod_ten {rank : Nat} (hpos : 0 < rank) (hfinite : rank < finiteRanks) :
    (shortest rank).digits % 10 ≠ 0 := by
  intro hzero
  have hcoarser := (rank_of_mod_ten hzero).trans (rank_shortest rank)
  have hfinest := finestExponent_le hpos hfinite
  have hle := le_exponent_shortest hpos hfinite (by omega) hcoarser
  omega

end DeskCalculator.Decimal
