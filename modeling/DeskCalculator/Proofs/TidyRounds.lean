import DeskCalculator.Proofs.NearestStep
import DeskCalculator.Proofs.TidiedResult

/-!
# Tidying is rounding

A result is rounded twice when it is tidied: to a number of units of the last
place, and that decimal to a double.

**Both roundings are to the nearest.** The first one sends an exact tie away from
zero, the second one to the even double. Nothing can go wrong on the way: the digits
of the first rounding are written out with the point before the last ten, and they
are read.

**The second time nothing happens.** Rounding starts anew from the double, which is
not the decimal it was read from. Where the doubles are closer together than the
units, the nearest unit is the same as before. Where they are further apart, it may
be another one, but one that is read as the same double. The spacing of the doubles
passes that of the units at `2 ^ 19`, and no spacing is equal to it.
-/

namespace DeskCalculator

namespace Display

/-! ## To the nearest unit -/

/-- The nearest number of units, and of two that are equally near the greater one. -/
theorem roundedUnits_eq_iff {x : ℚ} (hx : 0 ≤ x) {n : Nat} :
    roundedUnits x = n ↔ (n : ℚ) - 1 / 2 ≤ x * 10 ^ places ∧ x * 10 ^ places < n + 1 / 2 := by
  rw [roundedUnits, Nat.floor_eq_iff (by positivity)]
  constructor
  · rintro ⟨hlower, hupper⟩
    constructor <;> linarith
  · rintro ⟨hlower, hupper⟩
    constructor <;> linarith

/-- The rounding moves a number by half a unit at most. -/
theorem abs_value_roundedMagnitude_sub_le (rank : Nat) :
    |(roundedMagnitude rank).value - magnitude rank| ≤ 1 / 10 ^ places / 2 := by
  obtain ⟨hlower, hupper⟩ := (roundedUnits_eq_iff (magnitude_nonneg rank)).mp rfl
  have hpow : (0 : ℚ) < 10 ^ places := by positivity
  have hvalue : (roundedMagnitude rank).value * 10 ^ places = roundedUnits (magnitude rank) := by
    rw [value_roundedMagnitude, div_mul_cancel₀ _ hpow.ne']
  rw [abs_sub_le_iff, le_div_iff₀ two_pos, le_div_iff₀ hpow, le_div_iff₀ two_pos, le_div_iff₀ hpow]
  constructor
  · linarith
  · linarith

/-- What is written for the rounding: its whole part, and after the point its ten last digits. -/
theorem positional_roundedMagnitude (rank : Nat) :
    (roundedMagnitude rank).positional
      = Nat.toDigits 10 (roundedUnits (magnitude rank) / 10 ^ places)
        ++ '.' :: lastDigits places (roundedUnits (magnitude rank)) := by
  have hplaces : (roundedMagnitude rank).places = places := rfl
  rw [Decimal.positional_of_places_ne_zero (by rw [hplaces]; decide), hplaces]
  rfl

/--
**A result is tidied to the double nearest to its rounding.** The rounding is the
nearest number of units of the last place, a tie going away from zero. It is
written with the point in the right place, and read; the sign is that of the
result, even if nothing else is left. All but finite values with a fractional part
are left alone.
-/
theorem tidy_nearest (v : Binary64) :
    (v.isFinite = false ∨ v.isInteger → tidy v = v)
      ∧ ∀ negative rank, v = .finite negative rank → v.isInteger = false →
        ∃ (units : Nat) (rounded : Fin finiteRanks),
          (units : ℚ) - 1 / 2 ≤ magnitude rank * 10 ^ places
            ∧ magnitude rank * 10 ^ places < units + 1 / 2
            ∧ IsNearest (units / 10 ^ places) rounded
            ∧ tidy v = .finite negative rounded
            ∧ roundDigits? places (exactText v)
              = some (Nat.toDigits 10 (units / 10 ^ places) ++ '.' :: lastDigits places units)
            ∧ round? places v = some (tidy v) := by
  refine ⟨fun h => tidy_eq_self h.symm, ?_⟩
  rintro negative rank rfl hfraction
  -- a zero is whole, so the sign that is put back is the one of the result
  have hne : rank.val ≠ 0 := by
    intro hzero
    rw [Binary64.isInteger, hzero, units_zero, Nat.zero_mod] at hfraction
    cases hfraction
  obtain ⟨hlower, hupper⟩ := (roundedUnits_eq_iff (magnitude_nonneg rank)).mp rfl
  refine ⟨roundedUnits (magnitude rank),
    ⟨(roundedMagnitude rank).rank, rank_roundedMagnitude_lt rank.isLt⟩,
    hlower, hupper, ?_, tidy_finite negative rank, ?_, ?_⟩
  · rw [← value_roundedMagnitude]
    exact (roundedMagnitude rank).isNearest_rank
  · rw [roundDigits?_exactText, positional_roundedMagnitude]
  · rw [round?_finite, tidy_finite, decide_eq_true hne, Bool.and_true]

/-- The rank of `1 / 2048`, whose decimals end with a five behind the last place that is kept. -/
def rankOfTie : Fin finiteRanks := ⟨1012 * 2 ^ 52, by decide +kernel⟩

theorem tidy_nearest_tie :
    ∃ (units : Nat) (rounded : Fin finiteRanks),
      (units : ℚ) - 1 / 2 ≤ magnitude rankOfTie * 10 ^ places
        ∧ magnitude rankOfTie * 10 ^ places < units + 1 / 2
        ∧ IsNearest (units / 10 ^ places) rounded
        ∧ tidy (.finite true rankOfTie) = .finite true rounded
        ∧ roundDigits? places (exactText (.finite true rankOfTie))
          = some (Nat.toDigits 10 (units / 10 ^ places) ++ '.' :: lastDigits places units)
        ∧ round? places (.finite true rankOfTie) = some (tidy (.finite true rankOfTie)) :=
  (tidy_nearest (.finite true rankOfTie)).2 true rankOfTie rfl (by decide +kernel)

/-- The tie goes away from zero: `-1 / 2048` becomes `-0.0004882813`. -/
example : tidy (.finite true rankOfTie) = Binary64.ofBits 0xBF4000001B7CDFDA := by decide +kernel

/-! ## A second time -/

/-- Where the doubles are close, the decimal that was read is found again. -/
theorem roundedUnits_of_gap_lt {units : Nat}
    (h : gap (⟨units, -places⟩ : Decimal).rank < 1 / 10 ^ places) :
    roundedUnits (magnitude (⟨units, -places⟩ : Decimal).rank) = units := by
  have hpow : (0 : ℚ) < 10 ^ places := by positivity
  have hvalue : (⟨units, -places⟩ : Decimal).value * 10 ^ places = units := by
    rw [value_units, div_mul_cancel₀ _ hpow.ne']
  obtain ⟨habove, hbelow⟩ := abs_sub_le_iff.mp (Decimal.abs_value_sub_le ⟨units, -places⟩)
  generalize (⟨units, -places⟩ : Decimal).value = value at hvalue habove hbelow
  generalize (⟨units, -places⟩ : Decimal).rank = rank at h habove hbelow ⊢
  -- the double is less than half a unit away from the decimal
  rw [lt_div_iff₀ hpow] at h
  have habove := mul_le_mul_of_nonneg_right habove hpow.le
  have hbelow := mul_le_mul_of_nonneg_right hbelow hpow.le
  rw [roundedUnits_eq_iff (magnitude_nonneg rank)]
  constructor
  · linarith
  · linarith

/-- Where a power of two starts a block of so large steps, it is a whole number. -/
theorem whole_of_first {rank : Nat} (hblock : closeDoublings < rank / 2 ^ 52 - 1)
    (hfirst : rank % 2 ^ 52 = 0) : units rank % unitsPerOne = 0 := by
  have hpow : unitsPerOne = 2 ^ 1074 := by decide +kernel
  have hdigits : rank - (rank / 2 ^ 52 - 1) * 2 ^ 52 = 2 ^ 52 := by omega
  rw [units_eq, hdigits, ← Nat.pow_add, hpow]
  have hlarge : 1074 ≤ 52 + (rank / 2 ^ 52 - 1) := by
    unfold closeDoublings at hblock
    omega
  exact Nat.mod_eq_zero_of_dvd (pow_dvd_pow 2 hlarge)

/-- Where the doubles are far apart, each is read again from its rounding. -/
theorem rank_roundedMagnitude_of_block {rank : Nat} (h : closeDoublings < rank / 2 ^ 52 - 1) :
    (roundedMagnitude rank).rank = rank := by
  by_cases hfirst : rank % 2 ^ 52 = 0
  · -- the step before a power of two is closer, but so large a power is whole
    exact Decimal.rank_of_value_eq (value_roundedMagnitude_of_whole (whole_of_first h hfirst))
  · -- not the first of its block, so the step before it is as far away as the next one
    obtain ⟨below, rfl⟩ : ∃ below, rank = below + 1 := ⟨rank - 1, by omega⟩
    have hblock : below / 2 ^ 52 = (below + 1) / 2 ^ 52 := by omega
    have hgap : gap below = gap (below + 1) := by rw [gap_eq, gap_eq, hblock]
    have hunit := unit_lt_gap h
    have hmoved := abs_value_roundedMagnitude_sub_le (below + 1)
    refine Decimal.rank_of_abs_sub_lt (lt_of_le_of_lt hmoved ?_)
    rw [hgap]
    exact div_lt_div_of_pos_right hunit two_pos

/-- **A double that a number of units is read as is read again from its rounding.** -/
theorem rank_roundedMagnitude_rank_units (units : Nat) :
    (roundedMagnitude (⟨units, -places⟩ : Decimal).rank).rank
      = (⟨units, -places⟩ : Decimal).rank := by
  rcases Nat.lt_or_ge closeDoublings ((⟨units, -places⟩ : Decimal).rank / 2 ^ 52 - 1)
    with hfar | hclose
  · exact rank_roundedMagnitude_of_block hfar
  · rw [roundedMagnitude, roundedUnits_of_gap_lt (gap_lt_unit hclose)]

/-- **A tidied result is tidy**: nothing is left for a second rounding. -/
theorem tidy_tidy (v : Binary64) : tidy (tidy v) = tidy v := by
  cases v with
  | nan => rfl
  | infinite negative => rfl
  | finite negative rank =>
      rw [tidy_finite, tidy_finite]
      have hsame := rank_roundedMagnitude_rank_units (roundedUnits (magnitude rank))
      exact congrArg _ (Fin.ext hsame)

end Display

end DeskCalculator
