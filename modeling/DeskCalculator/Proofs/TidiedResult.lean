import DeskCalculator.Proofs.RoundedDigits
import Mathlib.Algebra.Order.Floor.Semifield

/-!
# Tidied results

A result is rounded to ten decimal places, and the rounded decimal is stored as a
double again. What is written before and after the rounding are the exact digits of
the magnitude and those of its rounding, so the rounding always succeeds.

Whole numbers are not touched, but this makes no difference: a whole number is its
own rounding, and reading it gives the number back. So every finite result, whole
or not, is tidied to the double nearest to its rounding.

The rounding is never so large that this double is infinite. A double that is not
a whole number is below `2 ^ 52`, and rounding moves it by less than one.
-/

namespace DeskCalculator.Display

/-- How many units of the last decimal place are nearest to a number, a tie going up. -/
def roundedUnits (x : ℚ) : Nat := ⌊x * 10 ^ places + 1 / 2⌋₊

theorem places_eq : places = 10 := rfl

/--
The magnitude of the given rank rounded to `places` decimal places, an exact tie
going up.
-/
def roundedMagnitude (rank : Nat) : Decimal := ⟨roundedUnits (magnitude rank), -places⟩

theorem roundedMagnitude_eq (rank : Nat) :
    roundedMagnitude rank = ⟨roundedUnits (magnitude rank), -10⟩ := rfl

theorem value_units (n : Nat) : (⟨n, -places⟩ : Decimal).value = n / 10 ^ places := by
  rw [Decimal.value, zpow_neg, zpow_natCast, div_eq_mul_inv]

theorem value_roundedMagnitude (rank : Nat) :
    (roundedMagnitude rank).value = roundedUnits (magnitude rank) / 10 ^ places :=
  value_units _

theorem roundedUnits_le {x : ℚ} (hx : 0 ≤ x) : (roundedUnits x : ℚ) ≤ x * 10 ^ places + 1 / 2 :=
  Nat.floor_le (by positivity)

/-- A whole number of units of the last place is its own rounding. -/
theorem roundedUnits_eq {x : ℚ} {n : Nat} (h : x * 10 ^ places = n) : roundedUnits x = n := by
  rw [roundedUnits, h, Nat.floor_eq_iff (by positivity)]
  constructor <;> linarith

/-! ## Whole numbers -/

/-- A whole number is its own rounding. -/
theorem value_roundedMagnitude_of_whole {rank : Nat} (h : units rank % unitsPerOne = 0) :
    (roundedMagnitude rank).value = magnitude rank := by
  obtain ⟨n, hn⟩ := Nat.dvd_of_mod_eq_zero h
  have hwhole : magnitude rank = n := by
    rw [magnitude, hn, Nat.cast_mul, mul_div_cancel_left₀ _ unitsPerOne_cast_pos.ne']
  have hunits : roundedUnits (magnitude rank) = n * 10 ^ places := by
    refine roundedUnits_eq ?_
    rw [hwhole]
    push_cast
    rfl
  rw [value_roundedMagnitude, hunits, hwhole, Nat.cast_mul, Nat.cast_pow, Nat.cast_ofNat,
    mul_div_cancel_right₀ _ (by positivity)]

/-- A double that is not a whole number is below `2 ^ 52`. -/
theorem magnitude_lt_of_not_whole {rank : Nat} (h : units rank % unitsPerOne ≠ 0) :
    magnitude rank < 2 ^ 52 := by
  have hdigits : rank - (rank / 2 ^ 52 - 1) * 2 ^ 52 < 2 ^ 53 := by omega
  have hunits := units_eq rank
  generalize rank / 2 ^ 52 - 1 = shift at hdigits hunits
  generalize rank - shift * 2 ^ 52 = digits at hdigits hunits
  have hpow : unitsPerOne = 2 ^ 1074 := by decide +kernel
  -- with a larger shift it would be whole
  have hshift : shift < 1074 := by
    refine Nat.lt_of_not_le fun hle => h ?_
    rw [hunits, hpow]
    exact Nat.mod_eq_zero_of_dvd (Dvd.dvd.mul_left (pow_dvd_pow 2 hle) digits)
  have hbound : units rank < 2 ^ 52 * unitsPerOne := by
    calc units rank = digits * 2 ^ shift := hunits
      _ < 2 ^ 53 * 2 ^ shift := Nat.mul_lt_mul_of_pos_right hdigits (Nat.two_pow_pos shift)
      _ ≤ 2 ^ 53 * 2 ^ 1073 :=
        Nat.mul_le_mul_left _ (Nat.pow_le_pow_right Nat.two_pos (Nat.le_of_lt_succ hshift))
      _ = 2 ^ 52 * unitsPerOne := by decide +kernel
  rw [magnitude, div_lt_iff₀ unitsPerOne_cast_pos]
  exact_mod_cast hbound

theorem rank_roundedMagnitude_lt {rank : Nat} (h : rank < finiteRanks) :
    (roundedMagnitude rank).rank < finiteRanks := by
  by_cases hwhole : units rank % unitsPerOne = 0
  · rw [Decimal.rank_of_value_eq (value_roundedMagnitude_of_whole hwhole)]
    exact h
  · -- what is not whole is far below the largest double
    have hbelow : (roundedMagnitude rank).value ≤ (⟨2 ^ 53, 0⟩ : Decimal).value := by
      have hunits := roundedUnits_le (magnitude_nonneg rank)
      have hsmall := magnitude_lt_of_not_whole hwhole
      have hlimit : (⟨2 ^ 53, 0⟩ : Decimal).value = 2 ^ 53 := by
        rw [Decimal.value]
        norm_num
      rw [places_eq] at hunits
      rw [value_roundedMagnitude, hlimit, places_eq, div_le_iff₀ (by positivity)]
      linarith
    have hfinite : (⟨2 ^ 53, 0⟩ : Decimal).rank < finiteRanks := by decide +kernel
    exact Nat.lt_of_le_of_lt (Decimal.rank_le_rank hbelow) hfinite

/-! ## Units and doubles -/

/-- How often the spacing of the doubles can double and stay below a unit of the last place. -/
def closeDoublings : Nat := 1040

/-- Below `2 ^ 19` the doubles are closer together than the units. -/
theorem gap_lt_unit {rank : Nat} (h : rank / 2 ^ 52 - 1 ≤ closeDoublings) :
    gap rank < 1 / 10 ^ places := by
  have hpow : 10 ^ places * 2 ^ closeDoublings < unitsPerOne := by decide +kernel
  -- kept as a variable, or the powers would be worked out
  generalize closeDoublings = doublings at h hpow
  have hshift : 10 ^ places * 2 ^ (rank / 2 ^ 52 - 1) < unitsPerOne :=
    Nat.lt_of_le_of_lt (Nat.mul_le_mul_left _ (Nat.pow_le_pow_right Nat.two_pos h)) hpow
  rw [gap_eq, div_lt_div_iff₀ unitsPerOne_cast_pos (by positivity), one_mul, mul_comm]
  exact_mod_cast hshift

/-- From there on they are further apart. -/
theorem unit_lt_gap {rank : Nat} (h : closeDoublings < rank / 2 ^ 52 - 1) :
    1 / 10 ^ places < gap rank := by
  have hpow : unitsPerOne < 10 ^ places * 2 ^ (closeDoublings + 1) := by decide +kernel
  generalize closeDoublings = doublings at h hpow
  have hshift : unitsPerOne < 10 ^ places * 2 ^ (rank / 2 ^ 52 - 1) :=
    Nat.lt_of_lt_of_le hpow (Nat.mul_le_mul_left _ (Nat.pow_le_pow_right Nat.two_pos h))
  rw [gap_eq, div_lt_div_iff₀ (by positivity) unitsPerOne_cast_pos, one_mul, mul_comm]
  exact_mod_cast hshift

/-! ## The digits of the rounding -/

/-- Written out with all its decimals, a magnitude is exact. -/
theorem value_exact (rank : Nat) : (Decimal.exact rank).value = magnitude rank := by
  unfold Decimal.exact Decimal.value magnitude Decimal.finestExponent unitsPerOne
  -- kept as a variable, or the powers would be worked out
  generalize hbits : (1074 : Nat) = bits
  have hten : (10 : ℚ) ^ bits = 2 ^ bits * 5 ^ bits := by
    rw [← mul_pow]
    norm_num
  rw [show (-1074 : Int) = -(bits : Int) by omega, Nat.pow_eq, Nat.pow_eq, zpow_neg,
    zpow_natCast, hten]
  push_cast
  field_simp

/-- Looking at one digit more rounds to the nearest unit, a tie going up. -/
theorem roundedUnits_div {n rest : Nat} {x : ℚ} (h : x * 10 ^ places = n / 10 ^ (rest + 1)) :
    (n / 10 ^ rest + 5) / 10 = roundedUnits x := by
  have hpow : 0 < 10 ^ rest := Decimal.ten_pow_pos rest
  have hsum : x * 10 ^ places + 1 / 2
      = ((n + 5 * 10 ^ rest : Nat) : ℚ) / (10 ^ (rest + 1) : Nat) := by
    rw [h]
    push_cast
    rw [pow_succ]
    field_simp
    ring
  rw [roundedUnits, hsum, Nat.floor_div_eq_div, Nat.pow_succ, ← Nat.div_div_eq_div_mul,
    Nat.add_mul_div_right _ _ hpow]

/-- **The digits of a magnitude are rounded to those of its rounding.** -/
theorem roundDigits?_exactText (negative : Bool) (rank : Fin finiteRanks) :
    roundDigits? places (exactText (.finite negative rank))
      = some (roundedMagnitude rank).positional := by
  obtain ⟨rest, hrest⟩ : ∃ rest, rest = 1063 := ⟨1063, rfl⟩
  have hcount : (Decimal.exact rank).places = places + 1 + rest := by rw [hrest]; rfl
  have hexponent : (Decimal.exact rank).exponent = -(places + (rest + 1 : Nat) : Int) := by
    rw [hrest]; rfl
  have hvalue : magnitude rank * 10 ^ places = (Decimal.exact rank).digits / 10 ^ (rest + 1) := by
    rw [← value_exact, Decimal.value_mul_pow hexponent]
  rw [exactText, roundDigits?_positional (by decide) hcount, roundedUnits_div hvalue]
  rfl

/-- What is written for a decimal reads as the step the decimal is rounded to. -/
theorem parse?_positional (d : Decimal) :
    Binary64.parse? d.positional = some (.ofRank false d.rank) := by
  have hliteral : Literal.parse? d.positional = some d.numeral.literal := by
    rw [← Decimal.chars_numeral]
    exact d.numeral.parse?_chars
  have hrank : d.numeral.literal.magnitude.rank = d.rank :=
    Decimal.rank_eq_of_value_eq d.value_literal_numeral
  rw [Binary64.parse?_of_literal hliteral, Literal.value, Decimal.toBinary64_eq_ofRank, hrank]
  rfl

theorem round?_eq {decimals : Nat} {v magnitude : Binary64} {text : List Char}
    (htext : roundDigits? decimals (exactText v) = some text)
    (hread : Binary64.parse? text = some magnitude) :
    round? decimals v = some (if v.isBelowZero then -magnitude else magnitude) := by
  rw [round?, htext, Option.bind_eq_bind, Option.bind_some, hread]
  rfl

/-- **Rounding always succeeds**, and gives the double nearest to the rounding. -/
theorem round?_finite (negative : Bool) (rank : Fin finiteRanks) :
    round? places (.finite negative rank)
      = some (.finite (negative && decide (rank.val ≠ 0))
          ⟨(roundedMagnitude rank).rank, rank_roundedMagnitude_lt rank.isLt⟩) := by
  have hread : Binary64.parse? (roundedMagnitude rank).positional = some
      (.finite false ⟨(roundedMagnitude rank).rank, rank_roundedMagnitude_lt rank.isLt⟩) := by
    rw [parse?_positional, Binary64.ofRank, dif_pos (rank_roundedMagnitude_lt rank.isLt)]
  have hbelow : (Binary64.finite negative rank).isBelowZero
      = (negative && decide (rank.val ≠ 0)) := rfl
  rw [round?_eq (roundDigits?_exactText negative rank) hread, hbelow]
  cases negative && decide (rank.val ≠ 0) with
  | false => rfl
  | true => rfl

/-- Whole numbers, infinities and NaN are left alone. -/
theorem tidy_eq_self {v : Binary64} (h : v.isInteger ∨ v.isFinite = false) : tidy v = v := by
  rw [tidy, if_pos]
  rcases h with hinteger | hfinite
  · rw [hinteger, Bool.or_true]
  · rw [hfinite, Bool.not_false, Bool.true_or]

/-- **A finite result is tidied to the double nearest to its rounding.** -/
theorem tidy_finite (negative : Bool) (rank : Fin finiteRanks) :
    tidy (.finite negative rank)
      = .finite negative ⟨(roundedMagnitude rank).rank, rank_roundedMagnitude_lt rank.isLt⟩ := by
  by_cases hwhole : units rank % unitsPerOne = 0
  · have hsame : (roundedMagnitude rank).rank = rank :=
      Decimal.rank_of_value_eq (value_roundedMagnitude_of_whole hwhole)
    have hinteger : (Binary64.finite negative rank).isInteger = true := decide_eq_true hwhole
    rw [tidy_eq_self (Or.inl hinteger)]
    exact congrArg _ (Fin.ext hsame.symm)
  · have hinteger : (Binary64.finite negative rank).isInteger = false := decide_eq_false hwhole
    -- zero is whole, so it is left out here
    have hne : rank.val ≠ 0 := by
      intro hzero
      rw [hzero, units_zero, Nat.zero_mod] at hwhole
      exact hwhole rfl
    rw [tidy, hinteger, round?_finite, decide_eq_true hne, Bool.and_true]
    rfl

end DeskCalculator.Display
