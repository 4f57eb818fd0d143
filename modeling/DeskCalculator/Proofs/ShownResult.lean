import DeskCalculator.Proofs.PrintedNumeral
import DeskCalculator.Proofs.ShortestDigits
import DeskCalculator.Proofs.TidiedResult
import Mathlib.Data.List.DropRight

/-!
# Shown results

A tidied result is printed as the fewest digits that read back as it, which need
not be the decimal it was rounded to: where the doubles are far apart a shorter
decimal is read as the same double. But it has no more places. The rounded
decimal is itself one that reads back, and none of those lies on a coarser grid
than the printed one.

Below `10 ^ 5` the doubles are so close that two decimals of ten places are never
read as the same one. There the printed decimal has the value of the rounded one,
and its text is the rounded decimal without the zeros at its end.

**Shown results are tidy numerals.** A finite result is shown as a plain numeral,
with a minus sign unless it is rounded to zero. There are no superfluous zeros at
either end and at most ten decimals, and the text reads as the tidied result
again.
-/

namespace DeskCalculator

open Display (roundedUnits roundedMagnitude)

/-! ## Zeros at the ends -/

/-- Only the numeral of zero starts with a zero. -/
theorem head?_toDigits {n : Nat} (h : 0 < n) : (Nat.toDigits 10 n).head? ≠ some '0' := by
  induction n using Nat.strongRecOn with
  | _ n ih =>
      rcases Nat.lt_or_ge n 10 with hsmall | hlarge
      · rw [Nat.toDigits_of_lt_base hsmall, List.head?_cons, ne_eq, Option.some_inj,
          Nat.digitChar_eq_zero]
        omega
      · rw [Nat.toDigits_of_base_le (by decide) hlarge,
          List.head?_append_of_ne_nil _ Nat.toDigits_ne_nil]
        exact ih (n / 10) (by omega) (by omega)

/-- Zeros at the end of a row of digits are taken off. -/
theorem rdropWhile_append_replicate (digits : List Char) (zeros : Nat) :
    (digits ++ List.replicate zeros '0').rdropWhile (· == '0') = digits.rdropWhile (· == '0') := by
  induction zeros with
  | zero => simp
  | succ zeros ih =>
      rw [List.replicate_succ', ← List.append_assoc, List.rdropWhile_concat_pos _ _ _ rfl, ih]

/-- The last digits end in a zero only if the number does. -/
theorem getLast?_lastDigits {count n : Nat} (hcount : count ≠ 0) (h : n % 10 ≠ 0) :
    (lastDigits count n).getLast? ≠ some '0' := by
  obtain ⟨fewer, rfl⟩ := Nat.exists_eq_succ_of_ne_zero hcount
  rw [lastDigits, List.getLast?_concat, ne_eq, Option.some_inj, Nat.digitChar_eq_zero]
  exact h

theorem rdropWhile_lastDigits {n : Nat} (count : Nat) (h : n % 10 ≠ 0) :
    (lastDigits count n).rdropWhile (· == '0') = lastDigits count n := by
  cases count with
  | zero => rfl
  | succ fewer =>
      rw [lastDigits, List.rdropWhile_concat_neg]
      rw [beq_iff_eq, Nat.digitChar_eq_zero]
      exact h

/-! ## Tidy numerals -/

/--
No superfluous zeros at either end, and after the point at least one digit and at
most as many as a result keeps.
-/
structure Numeral.Tidy (n : Numeral) : Prop where
  whole : n.whole = ['0'] ∨ n.whole.head? ≠ some '0'
  fraction : ∀ digits ∈ n.fraction,
    digits ≠ [] ∧ digits.length ≤ Display.places ∧ digits.getLast? ≠ some '0'

namespace Decimal

/-- A decimal of few places that does not end in a zero is written as a tidy numeral. -/
theorem tidy_numeral {d : Decimal} (hdigits : d.digits % 10 ≠ 0)
    (hplaces : d.places ≤ Display.places) : d.numeral.Tidy := by
  have hpos : 0 < d.digits := Nat.pos_of_ne_zero fun hzero => hdigits (by rw [hzero])
  unfold numeral
  split
  · next hnone =>
    refine ⟨Or.inr ?_, fun digits hnone => absurd hnone (Option.not_mem_none digits)⟩
    rw [List.head?_append_of_ne_nil _ Nat.toDigits_ne_nil]
    exact head?_toDigits hpos
  · next hsome =>
    refine ⟨?_, fun digits hfraction => ?_⟩
    · -- the whole part is a lone zero, or it starts with another digit
      rcases Nat.eq_zero_or_pos (d.digits / 10 ^ d.places) with hzero | hwhole
      · exact Or.inl ((congrArg (Nat.toDigits 10) hzero).trans rfl)
      · exact Or.inr (head?_toDigits hwhole)
    · cases hfraction
      have hlength := length_lastDigits d.places d.digits
      refine ⟨List.ne_nil_of_length_pos ?_, ?_, getLast?_lastDigits hsome hdigits⟩
      · rw [hlength]
        exact Nat.pos_of_ne_zero hsome
      · rw [hlength]
        exact hplaces

end Decimal

/-! ## Rounded decimals -/

/-- A number of units of the last place as a numeral, without the zeros at its end. -/
def Display.unitsText (units : Nat) : List Char :=
  Nat.toDigits 10 (units / 10 ^ places) ++
    match (lastDigits places units).rdropWhile (· == '0') with
    | [] => []
    | decimals => '.' :: decimals

/-- A decimal without a zero at its end is written as the numeral of its units. -/
theorem Decimal.positional_eq_unitsText {d : Decimal} {units : Nat} (hdigits : d.digits % 10 ≠ 0)
    (hplaces : d.places ≤ Display.places)
    (hunits : units = d.digits * 10 ^ (d.exponent + Display.places).toNat) :
    d.positional = Display.unitsText units := by
  have hpos : 0 < d.digits := Nat.pos_of_ne_zero fun hzero => hdigits (by rw [hzero])
  have hcount : d.places = (-d.exponent).toNat := rfl
  by_cases hnone : d.places = 0
  · -- a whole number: all decimals are zeros
    have hexponent : (d.exponent + Display.places).toNat = d.exponent.toNat + Display.places := by
      omega
    have hwhole : units = d.digits * 10 ^ d.exponent.toNat * 10 ^ Display.places := by
      rw [hunits, hexponent, Nat.pow_add, Nat.mul_assoc]
    have hdecimals : (lastDigits Display.places units).rdropWhile (· == '0') = [] := by
      have hzeros := lastDigits_mul_pow 0 Display.places (d.digits * 10 ^ d.exponent.toNat)
      rw [Nat.zero_add, ← hwhole] at hzeros
      rw [hzeros, rdropWhile_append_replicate]
      rfl
    rw [positional_of_places_eq_zero hnone, Display.unitsText, hdecimals, hwhole,
      Nat.mul_div_cancel _ (ten_pow_pos Display.places), toDigits_mul_pow hpos, List.append_nil]
  · -- the places the decimal lacks are zeros
    obtain ⟨zeros, hzeros⟩ := Nat.exists_eq_add_of_le hplaces
    have hexponent : (d.exponent + Display.places).toNat = zeros := by
      omega
    rw [hexponent] at hunits
    have hdecimals : (lastDigits Display.places units).rdropWhile (· == '0')
        = lastDigits d.places d.digits := by
      rw [hzeros, hunits, lastDigits_mul_pow, rdropWhile_append_replicate,
        rdropWhile_lastDigits _ hdigits]
    have hwhole : units / 10 ^ Display.places = d.digits / 10 ^ d.places := by
      rw [hunits, hzeros, Nat.pow_add, Nat.mul_div_mul_right _ _ (ten_pow_pos zeros)]
    have hsome : lastDigits d.places d.digits ≠ [] :=
      List.ne_nil_of_length_pos (by rw [length_lastDigits]; omega)
    obtain ⟨first, rest, hcons⟩ := List.exists_cons_of_ne_nil hsome
    rw [positional_of_places_ne_zero hnone, Display.unitsText, hdecimals, hwhole, hcons]

namespace Display

/-- Only what is rounded to zero is tidied to zero. -/
theorem rank_roundedMagnitude_eq_zero_iff {rank : Nat} :
    (roundedMagnitude rank).rank = 0 ↔ roundedUnits (magnitude rank) = 0 := by
  refine ⟨fun hrank => ?_, fun hunits => ?_⟩
  · refine Nat.eq_zero_of_not_pos fun hpos => ?_
    -- one unit of the last place is far above the first positive step
    have hfirst : magnitude 1 ≤ (roundedMagnitude rank).value := by
      have hone : (1 : ℚ) ≤ roundedUnits (magnitude rank) := by exact_mod_cast hpos
      have hsmall : magnitude 1 ≤ 1 / 10 ^ places := by
        have hlarge : ((10 ^ places : Nat) : ℚ) ≤ unitsPerOne :=
          Nat.cast_le.mpr (by decide +kernel)
        have hunits : units 1 = 1 := rfl
        rw [Nat.cast_pow, Nat.cast_ofNat] at hlarge
        rw [magnitude, hunits, Nat.cast_one]
        exact one_div_le_one_div_of_le (by positivity) hlarge
      rw [value_roundedMagnitude]
      exact hsmall.trans (div_le_div_of_nonneg_right hone (by positivity))
    have hstep := Decimal.le_rank_of_le_value hfirst
    omega
  · rw [roundedMagnitude_eq, hunits]
    exact Decimal.rank_of_digits_eq_zero rfl

/-- A positive result is printed with no more places than it was rounded to. -/
theorem places_shortest_le {rank : Nat} (hfinite : rank < finiteRanks)
    (hpos : 0 < (roundedMagnitude rank).rank) :
    (Decimal.shortest (roundedMagnitude rank).rank).places ≤ places := by
  have hbound := rank_roundedMagnitude_lt hfinite
  have hreads : (⟨roundedUnits (magnitude rank), -10⟩ : Decimal).rank
      = (roundedMagnitude rank).rank := by rw [roundedMagnitude_eq]
  have hgrid := Decimal.le_exponent_shortest hpos hbound (by decide) hreads
  unfold Decimal.places
  rw [places_eq]
  omega

/-! ## Where the doubles are close -/

/-- Below `10 ^ 5` the next step is closer than one unit of the last place. -/
theorem gap_lt {rank : Nat} (h : rank ≤ (⟨10 ^ 5, 0⟩ : Decimal).rank) :
    gap rank < 1 / 10 ^ places := by
  have hblock : (⟨10 ^ 5, 0⟩ : Decimal).rank / 2 ^ 52 - 1 = 1038 := by decide +kernel
  have hbelow := Nat.div_le_div_right (c := 2 ^ 52) h
  refine gap_lt_unit (Nat.le_trans (Nat.sub_le_sub_right hbelow 1) ?_)
  rw [hblock]
  decide

/-- A magnitude below `10 ^ 5` is not rounded above it. -/
theorem rank_roundedMagnitude_le {rank : Nat} (h : magnitude rank < 10 ^ 5) :
    (roundedMagnitude rank).rank ≤ (⟨10 ^ 5, 0⟩ : Decimal).rank := by
  refine Decimal.rank_le_rank ?_
  -- rounding may reach the bound, but it cannot pass it
  have hunits : roundedUnits (magnitude rank) ≤ 10 ^ 15 := by
    have hround := roundedUnits_le (magnitude_nonneg rank)
    rw [places_eq] at hround
    have hlt : (roundedUnits (magnitude rank) : ℚ) < (10 ^ 15 + 1 : Nat) := by
      push_cast
      linarith
    exact Nat.le_of_lt_succ (Nat.cast_lt.mp hlt)
  have hcast : (roundedUnits (magnitude rank) : ℚ) ≤ 10 ^ 15 := by exact_mod_cast hunits
  have hlimit : (⟨10 ^ 5, 0⟩ : Decimal).value = 10 ^ 5 := by
    rw [Decimal.value]
    norm_num
  rw [value_roundedMagnitude, hlimit, places_eq, div_le_iff₀ (by positivity)]
  linarith

/-- A decimal of few places is a whole number of units of the last place. -/
theorem value_eq_units {d : Decimal} (hplaces : d.places ≤ places) :
    d.value = (d.digits * 10 ^ (d.exponent + places).toNat : Nat) / 10 ^ places := by
  have hcount : d.places = (-d.exponent).toNat := rfl
  have hexponent : d.exponent = ((d.exponent + places).toNat : Int) - (places : Int) := by omega
  rw [Decimal.value, Nat.cast_mul, Nat.cast_pow, Nat.cast_ofNat, mul_div_assoc]
  congr 1
  conv_lhs => rw [hexponent, zpow_sub₀ (by norm_num), zpow_natCast, zpow_natCast]

/-- **Below `10 ^ 5` no other decimal of so few places is read as the rounded one.** -/
theorem roundedUnits_of_rank_eq {rank : Nat} (h : magnitude rank < 10 ^ 5) {d : Decimal}
    (hplaces : d.places ≤ places) (hsame : d.rank = (roundedMagnitude rank).rank) :
    roundedUnits (magnitude rank) = d.digits * 10 ^ (d.exponent + places).toNat := by
  have hvalue := value_eq_units hplaces
  have hrounded := value_roundedMagnitude rank
  have hgap := gap_lt (rank_roundedMagnitude_le h)
  -- both are whole numbers of units, less than one unit apart
  have hbelow := lt_of_le_of_lt (Decimal.value_sub_le_gap hsame) hgap
  have habove := lt_of_le_of_lt (Decimal.value_sub_le_gap hsame.symm) (by rwa [hsame])
  rw [hvalue, hrounded, ← sub_div, div_lt_div_iff_of_pos_right (by positivity),
    sub_lt_iff_lt_add] at hbelow habove
  norm_cast at hbelow habove
  omega

/-! ## What is shown -/

/-- What is shown is the text of the double, the sign of a zero left off. -/
theorem text_finite (negative : Bool) (rank : Fin finiteRanks) :
    text (.finite negative rank)
      = (Binary64.finite (negative && decide (rank.val ≠ 0)) rank).text := by
  obtain ⟨rank, hrank⟩ := rank
  cases rank with
  | zero => cases negative <;> rfl
  | succ below =>
      have hne : below + 1 ≠ 0 := Nat.succ_ne_zero below
      rw [decide_eq_true hne, Bool.and_true, text]
      exact if_neg (by simp [Binary64.isZero])

theorem tidy_numeral {rank : Nat} (hfinite : rank < finiteRanks) :
    (Binary64.numeral (roundedMagnitude rank).rank).Tidy := by
  unfold Binary64.numeral
  split
  · exact ⟨Or.inl rfl, fun digits hnone => absurd hnone (Option.not_mem_none digits)⟩
  · next hne =>
    have hpos := Nat.pos_of_ne_zero hne
    exact Decimal.tidy_numeral
      (Decimal.digits_shortest_mod_ten hpos (rank_roundedMagnitude_lt hfinite))
      (places_shortest_le hfinite hpos)

theorem chars_numeral_eq_zero_iff {rank : Nat} :
    (Binary64.numeral rank).chars = ['0'] ↔ rank = 0 := by
  refine ⟨fun hchars => ?_, fun hzero => by rw [hzero]; rfl⟩
  have htext := (Binary64.numeral rank).parse?_chars
  rw [hchars] at htext
  have hliteral : (Binary64.numeral rank).literal = ⟨false, ['0'], [], 0⟩ :=
    (Option.some.inj htext).symm
  rw [← Binary64.rank_literal_numeral rank, hliteral]
  exact Decimal.rank_of_digits_eq_zero rfl

theorem chars_numeral_eq_unitsText {rank : Nat} (h : magnitude rank < 10 ^ 5)
    (hfinite : rank < finiteRanks) :
    (Binary64.numeral (roundedMagnitude rank).rank).chars
      = unitsText (roundedUnits (magnitude rank)) := by
  by_cases hzero : (roundedMagnitude rank).rank = 0
  · rw [chars_numeral_eq_zero_iff.mpr hzero, rank_roundedMagnitude_eq_zero_iff.mp hzero]
    rfl
  · have hpos := Nat.pos_of_ne_zero hzero
    have hplaces := places_shortest_le hfinite hpos
    rw [Binary64.chars_numeral, Binary64.magnitudeText, if_neg hzero]
    exact Decimal.positional_eq_unitsText
      (Decimal.digits_shortest_mod_ten hpos (rank_roundedMagnitude_lt hfinite)) hplaces
      (roundedUnits_of_rank_eq h hplaces (Decimal.rank_shortest _))

theorem value_numeral {rank : Nat} (h : magnitude rank < 10 ^ 5) (hfinite : rank < finiteRanks) :
    (Binary64.numeral (roundedMagnitude rank).rank).literal.magnitude.value
      = roundedUnits (magnitude rank) / 10 ^ places := by
  by_cases hzero : (roundedMagnitude rank).rank = 0
  · rw [rank_roundedMagnitude_eq_zero_iff.mp hzero, Nat.cast_zero, zero_div, hzero]
    exact zero_mul _
  · have hplaces := places_shortest_le hfinite (Nat.pos_of_ne_zero hzero)
    rw [Binary64.numeral, if_neg hzero, Decimal.value_literal_numeral, value_eq_units hplaces,
      roundedUnits_of_rank_eq h hplaces (Decimal.rank_shortest _)]

/--
**A finite result is shown as a tidy numeral.** The numeral has a minus sign only
if the result is negative and not rounded to zero. What is shown reads as the
tidied result, the two zeros being one. Below `10 ^ 5` it says exactly the result
rounded to its places, and is written like that without the zeros at its end.
-/
theorem text_tidy (negative : Bool) (rank : Fin finiteRanks) :
    let result := tidy (.finite negative rank)
    let units := roundedUnits (magnitude rank)
    ∃ n : Numeral,
      text result = n.signedText (negative && decide (units ≠ 0))
        ∧ n.Tidy
        ∧ (n.chars = ['0'] ↔ units = 0)
        ∧ (∃ v, readNumber? (text result) = some v ∧ (v = result ∨ v.isZero ∧ result.isZero))
        ∧ (magnitude rank < 10 ^ 5 →
          n.literal.magnitude.value = units / 10 ^ places ∧ n.chars = unitsText units) := by
  intro result units
  have hresult : result = .finite negative ⟨(roundedMagnitude rank).rank, _⟩ :=
    tidy_finite negative rank
  have hzero : (roundedMagnitude rank).rank = 0 ↔ units = 0 := rank_roundedMagnitude_eq_zero_iff
  have htext : text result = (Binary64.finite (negative && decide (units ≠ 0))
      ⟨(roundedMagnitude rank).rank, rank_roundedMagnitude_lt rank.isLt⟩).text := by
    rw [hresult, text_finite]
    simp only [ne_eq, hzero]
  refine ⟨Binary64.numeral (roundedMagnitude rank).rank, ?_, tidy_numeral rank.isLt,
    chars_numeral_eq_zero_iff.trans hzero, ?_, fun h =>
      ⟨value_numeral h rank.isLt, chars_numeral_eq_unitsText h rank.isLt⟩⟩
  · rw [htext, Binary64.text_finite]
  · refine ⟨_, by rw [htext, Binary64.readNumber?_text_finite], ?_⟩
    by_cases hunits : units = 0
    · -- the text of a zero has lost its sign
      right
      rw [hresult]
      exact ⟨decide_eq_true (hzero.mpr hunits), decide_eq_true (hzero.mpr hunits)⟩
    · left
      rw [hresult, decide_eq_true hunits, Bool.and_true]

/-- `0.1 + 0.2` is shown without its binary noise. -/
example : text (tidy (Binary64.ofBits 0x3FD3333333333334)) = "0.3" := by decide +kernel

end Display

end DeskCalculator
