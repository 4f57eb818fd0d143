import DeskCalculator.Proofs.ExactValue
import DeskCalculator.Proofs.Numeral

/-!
# Printed numbers are numerals

A decimal is written out in full: the digits of its whole part, and after a point
as many digits as it has places. So what is printed for a finite double is a plain
numeral, with a minus sign in front if the double is negative. Read as a literal
it says the printed decimal again, and that decimal was chosen to read back.

**Printing and reading.** The text of a finite double reads as that double, the
sign of a zero included.
-/

namespace DeskCalculator

/-! ## The digits after the point -/

theorem isDigit_toDigits (n : Nat) : ∀ c ∈ Nat.toDigits 10 n, c.isDigit := fun _ hc =>
  Nat.isDigit_of_mem_toDigits (by decide) (by decide) hc

/-- The last digits of a number, as many as there are places, with zeros in front. -/
def lastDigits : Nat → Nat → List Char
  | 0, _ => []
  | places + 1, n => lastDigits places (n / 10) ++ [Nat.digitChar (n % 10)]

theorem length_lastDigits (places n : Nat) : (lastDigits places n).length = places := by
  induction places generalizing n with
  | zero => rfl
  | succ places ih => rw [lastDigits, List.length_append, ih, List.length_singleton]

theorem isDigit_lastDigits (places n : Nat) : ∀ c ∈ lastDigits places n, c.isDigit := by
  induction places generalizing n with
  | zero => exact fun c hc => absurd hc (by simp [lastDigits])
  | succ places ih =>
      intro c hc
      rcases List.mem_append.mp hc with hc | hc
      · exact ih (n / 10) c hc
      · rw [← Nat.toDigits_of_lt_base (Nat.mod_lt n (by decide))] at hc
        exact isDigit_toDigits (n % 10) c hc

theorem leftpad_append_singleton (places : Nat) (digits : List Char) (c : Char) :
    (digits ++ [c]).leftpad (places + 1) '0' = digits.leftpad places '0' ++ [c] := by
  rw [List.leftpad, List.leftpad, List.length_append, List.length_singleton,
    Nat.add_sub_add_right, List.append_assoc]

/-- A number with enough zeros in front is its whole part followed by its last digits. -/
theorem leftpad_toDigits (places n : Nat) :
    (Nat.toDigits 10 n).leftpad (places + 1) '0'
      = Nat.toDigits 10 (n / 10 ^ places) ++ lastDigits places n := by
  induction places generalizing n with
  | zero =>
      have hlength : 1 - (Nat.toDigits 10 n).length = 0 :=
        Nat.sub_eq_zero_of_le Nat.length_toDigits_pos
      rw [List.leftpad, Nat.zero_add, hlength, Nat.pow_zero, Nat.div_one, lastDigits,
        List.append_nil]
      rfl
  | succ places ih =>
      have hrest : (Nat.toDigits 10 n).leftpad (places + 1 + 1) '0'
          = (Nat.toDigits 10 (n / 10)).leftpad (places + 1) '0' ++ [Nat.digitChar (n % 10)] := by
        rcases Nat.lt_or_ge n 10 with hsmall | hlarge
        · -- only one digit: the zero in front of it comes from the padding
          rw [Nat.toDigits_of_lt_base hsmall, Nat.div_eq_of_lt hsmall, Nat.mod_eq_of_lt hsmall,
            ← leftpad_append_singleton]
          simp [List.leftpad, List.replicate_succ']
        · rw [Nat.toDigits_of_base_le (by decide) hlarge, leftpad_append_singleton]
      rw [hrest, ih, lastDigits, Nat.div_div_eq_div_mul, ← Nat.pow_succ', List.append_assoc]

/-- The last digits of a number with zeros at its end. -/
theorem lastDigits_mul_pow (places zeros n : Nat) :
    lastDigits (places + zeros) (n * 10 ^ zeros)
      = lastDigits places n ++ List.replicate zeros '0' := by
  induction zeros with
  | zero => simp
  | succ zeros ih =>
      rw [← Nat.add_assoc, lastDigits, Nat.pow_succ, ← Nat.mul_assoc,
        Nat.mul_div_cancel _ (by decide), Nat.mul_mod_left, ih, List.replicate_succ', List.append_assoc]
      rfl

/-- Zeros at the end of a positive number are zeros at the end of its digits. -/
theorem toDigits_mul_pow {n : Nat} (h : 0 < n) (zeros : Nat) :
    Nat.toDigits 10 (n * 10 ^ zeros) = Nat.toDigits 10 n ++ List.replicate zeros '0' := by
  induction zeros with
  | zero => simp
  | succ zeros ih =>
      have hlarge : 10 ≤ n * 10 ^ zeros * 10 :=
        Nat.le_mul_of_pos_left 10 (Nat.mul_pos h (Decimal.ten_pow_pos zeros))
      rw [Nat.pow_succ, ← Nat.mul_assoc, Nat.toDigits_of_base_le (by decide) hlarge,
        Nat.mul_div_cancel _ (by decide), Nat.mul_mod_left, ih, List.replicate_succ',
        List.append_assoc]
      rfl

/-! ## A decimal as a numeral -/

namespace Decimal

/-- How many digits a decimal has after the point. -/
def places (d : Decimal) : Nat := (-d.exponent).toNat

theorem positional_of_places_eq_zero {d : Decimal} (h : d.places = 0) :
    d.positional = Nat.toDigits 10 d.digits ++ List.replicate d.exponent.toNat '0' := by
  have hplaces : (-d.exponent).toNat = 0 := h
  rw [positional, if_pos hplaces]

/-- The whole part, and after a point the last digits. -/
theorem positional_of_places_ne_zero {d : Decimal} (h : d.places ≠ 0) :
    d.positional
      = Nat.toDigits 10 (d.digits / 10 ^ d.places) ++ '.' :: lastDigits d.places d.digits := by
  have hplaces : ¬(-d.exponent).toNat = 0 := h
  rw [positional, if_neg hplaces]
  dsimp only
  have hlength : (Nat.toDigits 10 (d.digits / 10 ^ d.places) ++ lastDigits d.places d.digits).length
      - d.places = (Nat.toDigits 10 (d.digits / 10 ^ d.places)).length := by
    rw [List.length_append, length_lastDigits, Nat.add_sub_cancel]
  rw [← places, leftpad_toDigits, hlength, List.take_left, List.drop_left]

/-- The numeral in which a decimal is written. -/
def numeral (d : Decimal) : Numeral :=
  if d.places = 0 then
    { whole := Nat.toDigits 10 d.digits ++ List.replicate d.exponent.toNat '0'
      fraction := none
      whole_ne_nil := List.append_ne_nil_of_left_ne_nil Nat.toDigits_ne_nil _
      isDigit_whole := by
        intro c hc
        rcases List.mem_append.mp hc with hc | hc
        · exact isDigit_toDigits d.digits c hc
        · rw [List.eq_of_mem_replicate hc]
          rfl
      isDigit_fraction := Numeral.isDigit_none }
  else
    { whole := Nat.toDigits 10 (d.digits / 10 ^ d.places)
      fraction := some (lastDigits d.places d.digits)
      whole_ne_nil := Nat.toDigits_ne_nil
      isDigit_whole := isDigit_toDigits _
      isDigit_fraction := fun _ hdigits => Option.some.inj hdigits ▸ isDigit_lastDigits _ _ }

theorem chars_numeral (d : Decimal) : d.numeral.chars = d.positional := by
  unfold numeral
  split
  · next h =>
    rw [positional_of_places_eq_zero h, Numeral.chars, Numeral.pointAndAfter, List.append_nil]
  · next h => rw [positional_of_places_ne_zero h, Numeral.chars, Numeral.pointAndAfter]

/-- **Read as a literal, the written decimal is the same number.** -/
theorem value_literal_numeral (d : Decimal) : d.numeral.literal.magnitude.value = d.value := by
  have hzeros (n : Nat) : Literal.natOfDigits (Nat.toDigits 10 n) = n :=
    Nat.ofDigitChars_ten_toDigits
  unfold numeral
  split
  · next h =>
    -- a whole number: zeros stand for the exponent
    have hpow : (10 : ℚ) ^ d.exponent = 10 ^ d.exponent.toNat := by
      rw [← zpow_natCast, Int.toNat_of_nonneg (by unfold places at h; omega)]
    have hdigits : Literal.natOfDigits
        (Nat.toDigits 10 d.digits ++ List.replicate d.exponent.toNat '0')
          = 10 ^ d.exponent.toNat * d.digits := by
      rw [Literal.natOfDigits, Nat.ofDigitChars_append, Nat.ofDigitChars_replicate_zero]
      exact congrArg _ (hzeros d.digits)
    simp only [Numeral.literal, Literal.magnitude, Option.getD_none, List.append_nil, hdigits]
    rw [value, value, hpow, List.length_nil, Nat.cast_zero, Int.sub_zero, zpow_zero, mul_one,
      Nat.cast_mul, Nat.cast_pow, Nat.cast_ofNat, mul_comm]
  · next h =>
    -- a fraction: as many digits behind the point as the exponent says
    have hexponent : (d.places : Int) = -d.exponent := by
      unfold places at h ⊢
      omega
    have hdigits : Literal.natOfDigits
        (Nat.toDigits 10 (d.digits / 10 ^ d.places) ++ lastDigits d.places d.digits)
          = d.digits := by
      rw [← leftpad_toDigits, List.leftpad, Literal.natOfDigits, Nat.ofDigitChars_append,
        Nat.ofDigitChars_replicate_zero, Nat.mul_zero]
      exact hzeros d.digits
    simp only [Numeral.literal, Literal.magnitude, Option.getD_some, hdigits, length_lastDigits]
    rw [hexponent, Int.zero_sub, Int.neg_neg]

end Decimal

/-! ## Numerals with a sign -/

namespace Numeral

/-- A numeral behind a minus sign, or alone. -/
def signedText (negative : Bool) (n : Numeral) : String :=
  String.ofList (Binary64.signText negative ++ n.chars)

theorem toList_signedText (negative : Bool) (n : Numeral) :
    (n.signedText negative).toList = Binary64.signText negative ++ n.chars := String.toList_ofList

theorem parse?_signed (negative : Bool) (n : Numeral) :
    Literal.parse? (Binary64.signText negative ++ n.chars)
      = some { n.literal with negative := negative } := by
  cases negative with
  | false => exact n.parse?_chars
  | true =>
      obtain ⟨htake, hdrop⟩ := n.takeWhile_chars
      have hsign : Literal.splitSign (Binary64.signText true ++ n.chars) = (true, n.chars) := rfl
      simp only [Literal.parse?, hsign, htake, hdrop, splitFraction_pointAndAfter]
      rw [if_neg fun h => n.whole_ne_nil h.1]
      rfl

theorem readNumber?_signedText (negative : Bool) (n : Numeral) :
    readNumber? (n.signedText negative)
      = (some (Binary64.ofRank negative n.literal.magnitude.rank)).filter Binary64.isFinite := by
  -- nothing is trimmed off, so the literal is all of the text
  have hblank : ∀ c ∈ Binary64.signText negative ++ n.chars, Text.isBlank c = false := by
    intro c hc
    rcases List.mem_append.mp hc with hsign | hc
    · have hminus : c = '-' := by
        unfold Binary64.signText at hsign
        split at hsign
        · exact List.mem_singleton.mp hsign
        · exact absurd hsign List.not_mem_nil
      rw [hminus]
      rfl
    · exact isBlank_eq_false (isDigit_or_point hc)
  have hvalue : Literal.value { n.literal with negative := negative }
      = Binary64.ofRank negative n.literal.magnitude.rank :=
    Decimal.toBinary64_eq_ofRank negative n.literal.magnitude
  rw [readNumber?_eq, toList_signedText, Text.trim_eq_self hblank, parse?_signed, Option.map_some,
    hvalue]

end Numeral

namespace Binary64

/-- The numeral that is printed for a finite magnitude. -/
def numeral (rank : Nat) : Numeral :=
  if rank = 0 then Numeral.ofDigit '0' Numeral.isDigit_zero else (Decimal.shortest rank).numeral

theorem chars_numeral (rank : Nat) : (numeral rank).chars = magnitudeText rank := by
  unfold numeral magnitudeText
  split
  · rfl
  · exact Decimal.chars_numeral _

theorem text_finite (negative : Bool) (rank : Fin finiteRanks) :
    (finite negative rank).text = (numeral rank).signedText negative := by
  rw [text, Numeral.signedText, chars_numeral]

theorem rank_literal_numeral (rank : Nat) : (numeral rank).literal.magnitude.rank = rank := by
  unfold numeral
  split
  · next h =>
    rw [h]
    exact Decimal.rank_of_digits_eq_zero rfl
  · rw [Decimal.rank_eq_of_value_eq (Decimal.value_literal_numeral _), Decimal.rank_shortest]

/-- **The text of a finite double reads as that double.** -/
theorem readNumber?_text_finite (negative : Bool) (rank : Fin finiteRanks) :
    readNumber? (finite negative rank).text = some (finite negative rank) := by
  rw [text_finite, Numeral.readNumber?_signedText, rank_literal_numeral, ofRank, dif_pos rank.isLt]
  rfl

end Binary64

end DeskCalculator
