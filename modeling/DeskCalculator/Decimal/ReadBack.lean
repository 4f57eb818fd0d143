import DeskCalculator.Binary64.Nearest
import DeskCalculator.Decimal.Shortest

/-!
# Reading decimals and reading back

**The shortcuts are right.** `toBinary64` answers for very large and very small
decimals without computing a power of ten. What it answers is the step the
decimal is rounded to, as for every other decimal.

**Printing reads back.** The decimal found for a positive magnitude is rounded to
that magnitude again, whether it was found on a grid or written out exactly.
-/

namespace DeskCalculator

/-- The first step past the finite doubles is `2 ^ 1024`. -/
theorem units_finiteRanks : units finiteRanks = 2 ^ 1024 * unitsPerOne := by
  decide +kernel

theorem nearestRank_zero {den : Nat} (hden : 0 < den) : nearestRank 0 den = 0 := by
  have h := nearestRank_units 0 hden
  rwa [units_zero, Nat.zero_mul] at h

namespace Decimal

theorem ten_pow_pos (n : Nat) : 0 < 10 ^ n := Nat.pow_pos (by decide)

theorem ten_pow_mul (m n : Nat) : 10 ^ m * 10 ^ n = 10 ^ (m + n) := (Nat.pow_add 10 m n).symm

theorem rank_eq (d : Decimal) :
    d.rank = nearestRank (d.digits * 10 ^ d.exponent.toNat * unitsPerOne)
      (10 ^ (-d.exponent).toNat) := rfl

theorem rank_of_digits_eq_zero {d : Decimal} (h : d.digits = 0) : d.rank = 0 := by
  rw [rank_eq, h, Nat.zero_mul, Nat.zero_mul, nearestRank_zero (ten_pow_pos _)]

/-- A decimal with so large an exponent is past the finite doubles. -/
theorem finiteRanks_le_rank {d : Decimal} (hdigits : d.digits ≠ 0)
    (h : overflowExponent ≤ d.exponent) : finiteRanks ≤ d.rank := by
  unfold overflowExponent at h
  rw [rank_eq, show (-d.exponent).toNat = 0 by omega, Nat.pow_zero]
  calc finiteRanks = nearestRank (units finiteRanks * 1) 1 :=
        (nearestRank_units finiteRanks (by decide)).symm
    _ ≤ nearestRank (d.digits * 10 ^ d.exponent.toNat * unitsPerOne) 1 := by
      apply nearestRank_le_nearestRank (by decide) (by decide)
      rw [Nat.mul_one, Nat.mul_one, Nat.mul_one, units_finiteRanks]
      apply Nat.mul_le_mul_right
      -- even a single digit is past the last finite double
      calc 2 ^ 1024 ≤ 10 ^ 310 := by decide +kernel
        _ ≤ 10 ^ d.exponent.toNat := Nat.pow_le_pow_right (by decide) (by omega)
        _ ≤ d.digits * 10 ^ d.exponent.toNat :=
          Nat.le_mul_of_pos_left _ (Nat.pos_of_ne_zero hdigits)

/-- A decimal so small is less than half the smallest subnormal. -/
theorem rank_eq_zero {d : Decimal} (h : d.exponent + (d.digits.log2 + 1) ≤ underflowExponent) :
    d.rank = 0 := by
  unfold underflowExponent at h
  rw [rank_eq, show d.exponent.toNat = 0 by omega, Nat.pow_zero, Nat.mul_one]
  apply Nat.le_zero.1
  rw [nearestRank_le_iff (ten_pow_pos _), units_zero, Nat.zero_add, show units (0 + 1) = 1 from rfl,
    Nat.one_mul]
  -- the decimal is less than half a unit
  left
  have digits_lt : d.digits < 10 ^ (d.digits.log2 + 1) :=
    Nat.lt_of_lt_of_le Nat.lt_log2_self (Nat.pow_le_pow_left (by decide) _)
  calc 2 * (d.digits * unitsPerOne) = d.digits * (2 * unitsPerOne) := Nat.mul_left_comm ..
    _ < 10 ^ (d.digits.log2 + 1) * (2 * unitsPerOne) :=
      Nat.mul_lt_mul_of_pos_right digits_lt (by decide +kernel)
    _ ≤ 10 ^ (d.digits.log2 + 1) * 10 ^ 325 := Nat.mul_le_mul_left _ (by decide +kernel)
    _ = 10 ^ (d.digits.log2 + 1 + 325) := ten_pow_mul (d.digits.log2 + 1) 325
    _ ≤ 10 ^ (-d.exponent).toNat := Nat.pow_le_pow_right (by decide) (by omega)

/-- Every decimal is read as the step it is rounded to. -/
theorem toBinary64_eq_ofRank (negative : Bool) (d : Decimal) :
    d.toBinary64 negative = .ofRank negative d.rank := by
  have zero_eq : Binary64.zero negative = .ofRank negative 0 := by
    simp [Binary64.zero, Binary64.ofRank, finiteRanks]
  unfold toBinary64
  split
  · next h => rw [rank_of_digits_eq_zero h, zero_eq]
  · next hdigits =>
    split
    · next h =>
      rw [Binary64.ofRank, dif_neg (Nat.not_lt.2 (finiteRanks_le_rank hdigits h))]
    · split
      · -- the shortcuts for very large and very small exponents give what the search would
        next h => rw [rank_eq_zero h, zero_eq]
      · rfl

/-! ## Reading back -/

theorem rank_of_onGrid? {rank : Nat} {exponent : Int} {d : Decimal}
    (h : onGrid? rank exponent = some d) : d.rank = rank := by
  unfold onGrid? at h
  dsimp only at h
  split at h
  · next below =>
    split at h
    · next above => cases h; exact above.1
    · cases h; exact below
  · split at h
    · next above => cases h; exact above
    · cases h

theorem rank_exact (rank : Nat) : (exact rank).rank = rank := by
  unfold exact Decimal.rank finestExponent unitsPerOne
  -- kept as a variable, or the powers would be worked out
  generalize hplaces : (-(-1074 : Int)).toNat = places
  rw [show 1074 = places by omega, show (-1074 : Int).toNat = 0 by omega]
  show nearestRank (units rank * 5 ^ places * 10 ^ 0 * 2 ^ places) (10 ^ places) = rank
  rw [Nat.pow_zero, Nat.mul_one, Nat.mul_assoc, ← Nat.mul_pow]
  exact nearestRank_units rank (ten_pow_pos _)

/-- The decimal printed for a magnitude is rounded to the same magnitude again. -/
theorem rank_shortest (rank : Nat) : (shortest rank).rank = rank := by
  unfold shortest
  dsimp only
  generalize hhit : List.findSome? _ _ = hit
  cases hit with
  | none => exact rank_exact rank
  | some d =>
    obtain ⟨_, _, h⟩ := List.exists_of_findSome?_eq_some hhit
    exact rank_of_onGrid? h

end Decimal

end DeskCalculator
