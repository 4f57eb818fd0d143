import DeskCalculator.Proofs.PrintedRow

/-!
# Printed tokens

A token is printed in one way, and its text is classified as that token again. So
the texts of tokens are a normal form of the typed texts: `007`, `7.0` and `7e0`
are all printed as `7`. Every finite double, every name and every operator is a
token of some text, and there are no others.

Nothing of a number is lost on the way, not even the sign of a zero. Every finite
double has one pattern of 64 bits, so a number that is read again as the same
double is the same bit for bit.
-/

namespace DeskCalculator

/-! ## Bits -/

namespace Binary64

theorem finiteRanks_lt : finiteRanks < 2 ^ 63 := by decide

theorem ofBits_eq (bits : UInt64) :
    ofBits bits =
      if h : bits.toNat % 2 ^ 63 < finiteRanks then
        finite (decide (2 ^ 63 ≤ bits.toNat)) ⟨bits.toNat % 2 ^ 63, h⟩
      else if bits.toNat % 2 ^ 63 = finiteRanks then infinite (decide (2 ^ 63 ≤ bits.toNat))
      else nan := rfl

/-- The bits of a finite double are its sign, then its rank. -/
theorem ofBits_eq_finite_iff {bits : UInt64} {negative : Bool} {rank : Fin finiteRanks} :
    ofBits bits = finite negative rank ↔ bits.toNat = negative.toNat * 2 ^ 63 + rank := by
  have hbits := bits.toNat_lt
  have hrank := rank.isLt
  have hfew := finiteRanks_lt
  have hsign : decide (2 ^ 63 ≤ bits.toNat) = negative
      ↔ bits.toNat / 2 ^ 63 = negative.toNat := by
    cases negative with
    | false =>
        rw [decide_eq_false_iff_not, Bool.toNat_false]
        omega
    | true =>
        rw [decide_eq_true_iff, Bool.toNat_true]
        omega
  rw [ofBits_eq]
  constructor
  · intro h
    split at h
    · injection h with hnegative hmagnitude
      have hquotient := hsign.mp hnegative
      have hmagnitude : bits.toNat % 2 ^ 63 = rank := congrArg Fin.val hmagnitude
      omega
    · -- the other patterns are an infinity or NaN
      split at h <;> cases h
  · intro h
    have hmagnitude : bits.toNat % 2 ^ 63 = rank := by omega
    rw [dif_pos (by omega), hsign.mpr (by omega)]
    exact congrArg _ (Fin.ext hmagnitude)

/-- **Every finite double has one pattern of bits.** -/
theorem existsUnique_bits {v : Binary64} (h : v.isFinite) : ∃! bits, ofBits bits = v := by
  match v, h with
  | .finite negative rank, _ =>
      have hrank := rank.isLt
      have hfew := finiteRanks_lt
      have hsign := negative.toNat_le
      have hfits : negative.toNat * 2 ^ 63 + rank < 2 ^ 64 := by omega
      refine ⟨UInt64.ofNat (negative.toNat * 2 ^ 63 + rank), ?_, ?_⟩
      · show ofBits _ = _
        rw [ofBits_eq_finite_iff, UInt64.toNat_ofNat_of_lt' hfits]
      · intro bits hbits
        rw [ofBits_eq_finite_iff] at hbits
        rw [← UInt64.toNat_inj, UInt64.toNat_ofNat_of_lt' hfits, hbits]

end Binary64

/-! ## Tokens of texts -/

namespace Token

/-- **These are all the tokens that come out of texts**, and each comes out of its own. -/
theorem exists_text_iff {token : Token} :
    (∃ text, classify? text = some token) ↔ token.Typeable := by
  constructor
  · rintro ⟨text, h⟩
    exact typeable_of_classify? h
  · intro h
    exact ⟨token.text, classify?_text_of_typeable h⟩

/-- Tokens that are printed alike are the same. -/
theorem text_injective {a b : Token} (ha : a.Typeable) (hb : b.Typeable) (h : a.text = b.text) :
    a = b := by
  have hsame := classify?_text_of_typeable ha
  rw [h, classify?_text_of_typeable hb] at hsame
  exact (Option.some.inj hsame).symm

/--
**A token of a text is printed as a text of that token.** If it is a number, then
the double has one pattern of bits, and this is what is printed and read.
-/
theorem classify?_printed {text : String} {token : Token} (h : classify? text = some token) :
    classify? token.text = some token
      ∧ ∀ value, token = .operand (.number value) → ∃! bits, Binary64.ofBits bits = value := by
  have htypeable := typeable_of_classify? h
  refine ⟨classify?_text_of_typeable htypeable, ?_⟩
  rintro value rfl
  exact Binary64.existsUnique_bits htypeable

theorem classify?_printed_negativeZero :
    classify? "-0.0" = some (.operand (.number (.zero true)))
      ∧ classify? (Binary64.zero true).text = some (.operand (.number (.zero true)))
      ∧ ∃! bits, Binary64.ofBits bits = .zero true := by
  have h : classify? "-0.0" = some (.operand (.number (.zero true))) := by decide +kernel
  obtain ⟨hagain, hbits⟩ := classify?_printed h
  exact ⟨h, hagain, hbits _ rfl⟩

end Token

end DeskCalculator
