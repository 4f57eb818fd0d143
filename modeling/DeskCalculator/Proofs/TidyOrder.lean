import DeskCalculator.Binary64.Arithmetic
import DeskCalculator.Proofs.TidyRounds

/-!
# Tidying keeps order

Tidying changes how a result looks, and as little as possible of what it is. The
sign is set aside and put back, so a result and its negation are tidied alike. On
the magnitudes both roundings are monotone, whole numbers being no exception,
since a whole number is its own rounding.

**A result stays where it is.** The first rounding moves it by half a unit of the
last place at most. The second one goes to the nearest double, and the result is
itself a double, so it is moved no further than back again.
-/

namespace DeskCalculator

namespace Binary64

/-! ## Doubles as signed numbers -/

/-- The number that a finite double is; the two zeros are the same. -/
def value? : Binary64 → Option ℚ
  | finite negative rank => some (signedUnits negative rank / unitsPerOne)
  | _ => none

/-- The comparison of doubles. NaN is not comparable, and the two zeros are equal. -/
def le : Binary64 → Binary64 → Bool
  | nan, _ => false
  | _, nan => false
  | infinite n, infinite m => n || !m
  | infinite n, finite _ _ => n
  | finite _ _, infinite m => !m
  | finite n a, finite m b => signedUnits n a ≤ signedUnits m b

instance : LE Binary64 := ⟨fun v w => le v w⟩

instance (v w : Binary64) : Decidable (v ≤ w) := inferInstanceAs (Decidable (le v w = true))

theorem le_iff {v w : Binary64} : v ≤ w ↔ le v w := Iff.rfl

theorem finite_le_finite {n m : Bool} {a b : Fin finiteRanks} :
    finite n a ≤ finite m b ↔ signedUnits n a ≤ signedUnits m b := by
  rw [le_iff, le, decide_eq_true_iff]

theorem infinite_le_finite {n m : Bool} {b : Fin finiteRanks} : infinite n ≤ finite m b ↔ n := by
  rw [le_iff, le]

theorem finite_le_infinite {n m : Bool} {a : Fin finiteRanks} : finite n a ≤ infinite m ↔ !m := by
  rw [le_iff, le]

theorem signedUnits_false (rank : Nat) : signedUnits false rank = units rank :=
  if_neg Bool.false_ne_true

theorem signedUnits_true (rank : Nat) : signedUnits true rank = -(units rank : Int) := if_pos rfl

/-- Finite doubles are compared as the numbers they are. -/
theorem le_iff_of_value? {v w : Binary64} {x y : ℚ} (hv : v.value? = some x)
    (hw : w.value? = some y) : v ≤ w ↔ x ≤ y := by
  match v, w with
  | finite n a, finite m b =>
      rw [value?, Option.some_inj] at hv hw
      rw [finite_le_finite, ← hv, ← hw, div_le_div_iff_of_pos_right unitsPerOne_cast_pos,
        Int.cast_le]

theorem abs_signedUnits_sub (negative : Bool) (a b : Nat) :
    |(signedUnits negative a / unitsPerOne - signedUnits negative b / unitsPerOne : ℚ)|
      = |magnitude a - magnitude b| := by
  cases negative with
  | false =>
      rw [signedUnits_false, signedUnits_false, Int.cast_natCast, Int.cast_natCast, ← magnitude,
        ← magnitude]
  | true =>
      rw [signedUnits_true, signedUnits_true, Int.cast_neg, Int.cast_neg, Int.cast_natCast,
        Int.cast_natCast, neg_div, neg_div, neg_sub_neg, ← magnitude, ← magnitude, abs_sub_comm]

/-- A map of the ranks that is monotone and keeps zero also keeps the order of signed numbers. -/
theorem signedUnits_le_signedUnits {f : Nat → Nat} (hmono : Monotone f) (hzero : f 0 = 0)
    {n m : Bool} {a b : Nat} (h : signedUnits n a ≤ signedUnits m b) :
    signedUnits n (f a) ≤ signedUnits m (f b) := by
  have hkeep {a b : Nat} (hle : units a ≤ units b) : units (f a) ≤ units (f b) :=
    units_le_units (hmono (units_le_units_iff.mp hle))
  cases n with
  | false =>
      cases m with
      | false =>
          rw [signedUnits_false, signedUnits_false] at h ⊢
          have hle := hkeep (Int.ofNat_le.mp h)
          omega
      | true =>
          -- a number is at most the negation of another one only if both are zero
          rw [signedUnits_false, signedUnits_true] at h ⊢
          have ha : a = 0 := units_injective (by rw [units_zero]; omega)
          have hb : b = 0 := units_injective (by rw [units_zero]; omega)
          rw [ha, hb, hzero, units_zero]
          omega
  | true =>
      cases m with
      | false =>
          rw [signedUnits_true, signedUnits_false]
          omega
      | true =>
          rw [signedUnits_true, signedUnits_true] at h ⊢
          have hle := hkeep (Int.ofNat_le.mp (Int.neg_le_neg_iff.mp h))
          omega

end Binary64

namespace Display

open Binary64

/-! ## The two roundings -/

theorem roundedUnits_le_roundedUnits {x y : ℚ} (h : x ≤ y) : roundedUnits x ≤ roundedUnits y := by
  have hpow : (0 : ℚ) ≤ 10 ^ places := by positivity
  refine Nat.floor_le_floor ?_
  linarith [mul_le_mul_of_nonneg_right h hpow]

/-- A larger magnitude is not tidied to a smaller one. -/
theorem monotone_rank_roundedMagnitude : Monotone fun rank => (roundedMagnitude rank).rank := by
  intro a b hle
  refine Decimal.rank_le_rank ?_
  have hunits := roundedUnits_le_roundedUnits (magnitude_le_magnitude hle)
  rw [value_roundedMagnitude, value_roundedMagnitude]
  exact div_le_div_of_nonneg_right (Nat.cast_le.mpr hunits) (by positivity)

theorem rank_roundedMagnitude_zero : (roundedMagnitude 0).rank = 0 := by
  refine Decimal.rank_of_value_eq (value_roundedMagnitude_of_whole ?_)
  rw [units_zero, Nat.zero_mod]

/-- Together the two roundings move a magnitude by one unit of the last place at most. -/
theorem abs_magnitude_roundedMagnitude_sub_le (rank : Nat) :
    |magnitude (roundedMagnitude rank).rank - magnitude rank| ≤ 1 / 10 ^ places := by
  have hmoved := abs_value_roundedMagnitude_sub_le rank
  -- the magnitude itself is a double, and no double is nearer than the one that is read
  have hback := (roundedMagnitude rank).isNearest_rank.le rank
  calc |magnitude (roundedMagnitude rank).rank - magnitude rank|
      ≤ |magnitude (roundedMagnitude rank).rank - (roundedMagnitude rank).value|
        + |(roundedMagnitude rank).value - magnitude rank| := abs_sub_le _ _ _
    _ ≤ 1 / 10 ^ places / 2 + 1 / 10 ^ places / 2 := by
        rw [abs_sub_comm]
        exact add_le_add (hback.trans hmoved) hmoved
    _ = 1 / 10 ^ places := add_halves _

/-! ## Tidied results -/

/-- **A larger result is not tidied to a smaller one**, and infinities stay at the ends. -/
theorem tidy_le_tidy {v w : Binary64} (h : v ≤ w) : tidy v ≤ tidy w := by
  match v, w with
  | .infinite n, .infinite m => exact h
  | .infinite n, .finite m b =>
      rw [infinite_le_finite] at h
      rw [tidy_finite]
      exact infinite_le_finite.mpr h
  | .finite n a, .infinite m =>
      rw [finite_le_infinite] at h
      rw [tidy_finite]
      exact finite_le_infinite.mpr h
  | .finite n a, .finite m b =>
      -- rounding is monotone on the magnitudes and keeps the sign
      rw [finite_le_finite] at h
      rw [tidy_finite, tidy_finite, finite_le_finite]
      exact signedUnits_le_signedUnits monotone_rank_roundedMagnitude rank_roundedMagnitude_zero h

/-- **The negation of a result is tidied to the negation**, of a zero as well. -/
theorem tidy_neg (v : Binary64) : tidy (-v) = -tidy v := by
  cases v with
  | nan => rfl
  | infinite negative => rfl
  | finite negative rank =>
      have hneg (rank : Fin finiteRanks) :
          -finite negative rank = .finite (!negative) rank := rfl
      rw [hneg, tidy_finite, tidy_finite, hneg]

/--
**Tidying is only cosmetic.** It keeps the order of results and the symmetry of the
signs, and a finite result is tidied to a finite one that is at most one unit of the
tenth decimal place away.
-/
theorem tidy_cosmetic :
    (∀ v w : Binary64, v ≤ w → tidy v ≤ tidy w)
      ∧ (∀ v : Binary64, tidy (-v) = -tidy v)
      ∧ ∀ v x, v.value? = some x →
        ∃ y, (tidy v).value? = some y ∧ |y - x| ≤ 1 / 10 ^ 10 := by
  refine ⟨fun v w => tidy_le_tidy, tidy_neg, ?_⟩
  intro v x hx
  match v with
  | .finite negative rank =>
      rw [value?, Option.some_inj] at hx
      refine ⟨_, by rw [tidy_finite, value?], ?_⟩
      rw [← hx, abs_signedUnits_sub]
      exact abs_magnitude_roundedMagnitude_sub_le rank

theorem tidy_cosmetic_tie :
    finite true rankOfTie ≤ finite false rankOfTie
      ∧ tidy (finite true rankOfTie) ≤ tidy (finite false rankOfTie)
      ∧ tidy (-finite true rankOfTie) = -tidy (finite true rankOfTie)
      ∧ ∃ y, (tidy (finite true rankOfTie)).value? = some y
        ∧ |y - signedUnits true rankOfTie / unitsPerOne| ≤ 1 / 10 ^ 10 := by
  have hle : finite true rankOfTie ≤ finite false rankOfTie := by decide +kernel
  obtain ⟨hmono, hneg, hclose⟩ := tidy_cosmetic
  exact ⟨hle, hmono _ _ hle, hneg _, hclose _ _ rfl⟩

end Display

end DeskCalculator
