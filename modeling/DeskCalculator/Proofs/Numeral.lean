import DeskCalculator.Token

/-!
# Plain numerals

A numeral is what can be typed on the pad as one number: digits, and perhaps a
point with further digits. Every numeral is a number literal, and it is a token
unless it is too large for a finite double.

Zeros in front do not count. `trimmed` takes the superfluous ones off and keeps
one where no other digit stands before the point, which is how the numeral looks
while it is typed. Both read as the same token.
-/

namespace DeskCalculator

/-- Digits, and perhaps a point and further digits. -/
structure Numeral where
  whole : List Char
  /-- The digits after the point, when there is a point. -/
  fraction : Option (List Char)
  whole_ne_nil : whole ≠ []
  isDigit_whole : ∀ c ∈ whole, c.isDigit
  isDigit_fraction : ∀ digits ∈ fraction, ∀ c ∈ digits, c.isDigit

/-- The digits without superfluous zeros in front; one zero stays if there is nothing else. -/
def trimZeros (digits : List Char) : List Char :=
  match digits.dropWhile (· == '0') with
  | [] => ['0']
  | first :: rest => first :: rest

theorem trimZeros_zero (digits : List Char) : trimZeros ('0' :: digits) = trimZeros digits := rfl

theorem trimZeros_cons {c : Char} (h : c ≠ '0') (digits : List Char) :
    trimZeros (c :: digits) = c :: digits := by
  rw [trimZeros, List.dropWhile_cons_of_neg (by simpa using h)]

theorem trimZeros_ne_nil (digits : List Char) : trimZeros digits ≠ [] := by
  unfold trimZeros
  split <;> simp

theorem trimZeros_eq_zero_iff {digits : List Char} :
    trimZeros digits = ['0'] ↔ digits.all (· == '0') := by
  induction digits with
  | nil => simp [trimZeros]
  | cons c digits ih =>
      by_cases hc : c = '0'
      · rw [hc, trimZeros_zero, ih]
        simp
      · rw [trimZeros_cons hc]
        simp [hc]

theorem isDigit_trimZeros {digits : List Char} (h : ∀ c ∈ digits, c.isDigit) :
    ∀ c ∈ trimZeros digits, c.isDigit := by
  unfold trimZeros
  split
  · simp
  · rename_i first rest hkept
    intro c hc
    rw [← hkept] at hc
    exact h c ((List.dropWhile_sublist _).subset hc)

theorem natOfDigits_trimZeros (digits further : List Char) :
    Literal.natOfDigits (trimZeros digits ++ further)
      = Literal.natOfDigits (digits ++ further) := by
  induction digits with
  | nil => rfl
  | cons c digits ih =>
      by_cases hc : c = '0'
      · rw [hc, trimZeros_zero, ih]
        rfl
      · rw [trimZeros_cons hc]

namespace Numeral

/-- The point and what comes after it. -/
def pointAndAfter (n : Numeral) : List Char :=
  match n.fraction with
  | none => []
  | some digits => '.' :: digits

def chars (n : Numeral) : List Char := n.whole ++ n.pointAndAfter

def text (n : Numeral) : String := String.ofList n.chars

/-- The numeral without superfluous zeros in front. -/
def trimmed (n : Numeral) : Numeral where
  whole := trimZeros n.whole
  fraction := n.fraction
  whole_ne_nil := trimZeros_ne_nil n.whole
  isDigit_whole := isDigit_trimZeros n.isDigit_whole
  isDigit_fraction := n.isDigit_fraction

/-- Nothing but zeros, without a point. -/
def isZero (n : Numeral) : Bool := n.fraction.isNone && n.whole.all (· == '0')

theorem isDigit_none : ∀ digits ∈ (none : Option (List Char)), ∀ c ∈ digits, c.isDigit :=
  fun digits hnone => absurd hnone (Option.not_mem_none digits)

theorem isDigit_zero : '0'.isDigit := rfl

theorem ne_point {c : Char} (h : c.isDigit) : c ≠ '.' := by
  intro hc
  rw [hc] at h
  exact Bool.false_ne_true h

theorem point_not_mem_digits {digits : List Char} (h : ∀ c ∈ digits, c.isDigit) : '.' ∉ digits :=
  fun hmem => ne_point (h '.' hmem) rfl

def ofDigit (c : Char) (h : c.isDigit) : Numeral where
  whole := [c]
  fraction := none
  whole_ne_nil := List.cons_ne_nil c []
  isDigit_whole := fun _ hd => List.mem_singleton.mp hd ▸ h
  isDigit_fraction := isDigit_none

/-- The numeral with a digit added at its end. -/
def addDigit (n : Numeral) {c : Char} (h : c.isDigit) : Numeral where
  whole := if n.fraction.isSome then n.whole else n.whole ++ [c]
  fraction := n.fraction.map (· ++ [c])
  whole_ne_nil := by
    split
    · exact n.whole_ne_nil
    · exact List.append_ne_nil_of_left_ne_nil n.whole_ne_nil _
  isDigit_whole := by
    split
    · exact n.isDigit_whole
    · exact List.forall_mem_append.mpr ⟨n.isDigit_whole, List.forall_mem_singleton.mpr h⟩
  isDigit_fraction := by
    intro digits hdigits
    obtain ⟨before, hbefore, rfl⟩ := Option.map_eq_some_iff.mp hdigits
    exact List.forall_mem_append.mpr
      ⟨n.isDigit_fraction before hbefore, List.forall_mem_singleton.mpr h⟩

/-- The numeral with a point, behind which there may be digits already. -/
def addPoint (n : Numeral) : Numeral where
  whole := n.whole
  fraction := some (n.fraction.getD [])
  whole_ne_nil := n.whole_ne_nil
  isDigit_whole := n.isDigit_whole
  isDigit_fraction := by
    intro digits hdigits
    rw [← Option.some.inj hdigits]
    cases hfraction : n.fraction with
    | none => exact nofun
    | some before => exact n.isDigit_fraction before hfraction

def literal (n : Numeral) : Literal := ⟨false, n.whole, n.fraction.getD [], 0⟩

theorem toList_text (n : Numeral) : n.text.toList = n.chars := String.toList_ofList

theorem chars_addDigit (n : Numeral) {c : Char} (h : c.isDigit) :
    (n.addDigit h).chars = n.chars ++ [c] := by
  cases hfraction : n.fraction with
  | none => simp [chars, pointAndAfter, addDigit, hfraction]
  | some digits => simp [chars, pointAndAfter, addDigit, hfraction]

theorem chars_addPoint {n : Numeral} (h : '.' ∉ n.chars) :
    n.addPoint.chars = n.chars ++ ['.'] := by
  cases hfraction : n.fraction with
  | none => simp [chars, pointAndAfter, addPoint, hfraction]
  | some digits => exact absurd (by simp [chars, pointAndAfter, hfraction]) h

theorem isDigit_or_point {n : Numeral} {c : Char} (h : c ∈ n.chars) : c.isDigit ∨ c = '.' := by
  rcases List.mem_append.mp h with hw | ht
  · exact Or.inl (n.isDigit_whole c hw)
  · unfold pointAndAfter at ht
    split at ht
    · simp at ht
    · rename_i digits hf
      rcases List.mem_cons.mp ht with hp | hd
      · exact Or.inr hp
      · exact Or.inl (n.isDigit_fraction digits hf c hd)

theorem chars_eq_cons (n : Numeral) : ∃ c rest, n.chars = c :: rest ∧ c.isDigit := by
  obtain ⟨c, rest, hwhole⟩ := List.exists_cons_of_ne_nil n.whole_ne_nil
  refine ⟨c, rest ++ n.pointAndAfter, by rw [chars, hwhole, List.cons_append], ?_⟩
  exact n.isDigit_whole c (by rw [hwhole]; exact List.mem_cons_self)

theorem chars_ne_nil (n : Numeral) : n.chars ≠ [] := by
  obtain ⟨c, rest, hchars, _⟩ := n.chars_eq_cons
  rw [hchars]
  exact List.cons_ne_nil c rest

/-! ## Numerals are literals -/

theorem toNat_of_isDigit {c : Char} (h : c.isDigit) : 48 ≤ c.toNat ∧ c.toNat ≤ 57 := by
  simpa [Char.isDigit, UInt32.le_iff_toNat_le] using h

theorem isBlank_eq_false {c : Char} (h : c.isDigit ∨ c = '.') : Text.isBlank c = false := by
  rcases h with hd | rfl
  · exact Text.not_isBlank_of_isAlphanum (Bool.or_eq_true_iff.mpr (Or.inr hd))
  · rfl

theorem splitSign_of_isDigit {c : Char} (h : c.isDigit) (rest : List Char) :
    Literal.splitSign (c :: rest) = (false, c :: rest) := by
  obtain ⟨hminus, hplus⟩ := Literal.ne_sign_of_isAlphanum (Bool.or_eq_true_iff.mpr (Or.inr h))
  exact Literal.splitSign_cons hminus hplus rest

/-- The digits before the point end at the point or at the end of the numeral. -/
theorem takeWhile_chars (n : Numeral) :
    n.chars.takeWhile Char.isDigit = n.whole
      ∧ n.chars.dropWhile Char.isDigit = n.pointAndAfter := by
  have hstop : n.pointAndAfter.takeWhile Char.isDigit = []
      ∧ n.pointAndAfter.dropWhile Char.isDigit = n.pointAndAfter := by
    unfold pointAndAfter
    split
    · exact ⟨rfl, rfl⟩
    · exact ⟨rfl, rfl⟩
  rw [chars, List.takeWhile_append_of_pos n.isDigit_whole,
    List.dropWhile_append_of_pos n.isDigit_whole, hstop.1, hstop.2, List.append_nil]
  exact ⟨rfl, rfl⟩

theorem splitFraction_pointAndAfter (n : Numeral) :
    Literal.splitFraction n.pointAndAfter = (n.fraction.getD [], []) := by
  unfold pointAndAfter
  split
  · rename_i hf
    rw [hf]
    rfl
  · rename_i digits hf
    have hdigits : ∀ c ∈ digits, c.isDigit := n.isDigit_fraction digits hf
    rw [Literal.splitFraction, ← List.append_nil digits, List.takeWhile_append_of_pos hdigits,
      List.dropWhile_append_of_pos hdigits, hf]
    simp

/-- **Every numeral is a literal**, without sign and exponent. -/
theorem parse?_chars (n : Numeral) : Literal.parse? n.chars = some n.literal := by
  obtain ⟨c, rest, hchars, hc⟩ := n.chars_eq_cons
  have hsign : Literal.splitSign n.chars = (false, n.chars) := by
    rw [hchars, splitSign_of_isDigit hc]
  obtain ⟨htake, hdrop⟩ := n.takeWhile_chars
  simp only [Literal.parse?, hsign, htake, hdrop, splitFraction_pointAndAfter]
  rw [if_neg fun h => n.whole_ne_nil h.1]
  rfl

theorem readNumber?_text (n : Numeral) :
    readNumber? n.text = (some n.literal.value).filter Binary64.isFinite := by
  have hblank : ∀ c ∈ n.chars, Text.isBlank c = false := fun c hc =>
    isBlank_eq_false (isDigit_or_point hc)
  rw [readNumber?_eq, toList_text, Text.trim_eq_self hblank, parse?_chars]
  rfl

/-! ## Numerals are tokens -/

/-- A digit comes before all letters. -/
theorem not_isNameStart {c : Char} (h : c.isDigit) : Token.isNameStart c = false := by
  have hdigit : 48 ≤ c.toNat ∧ c.toNat ≤ 57 := toNat_of_isDigit h
  -- the codes of the digits lie below those of the letters
  have hupper : ¬ 'A'.val ≤ c.val := by
    intro hle
    have hle : 65 ≤ c.toNat := UInt32.le_iff_toNat_le.mp hle
    omega
  have hlower : ¬ 'a'.val ≤ c.val := by
    intro hle
    have hle : 97 ≤ c.toNat := UInt32.le_iff_toNat_le.mp hle
    omega
  have hunderscore : ¬c = '_' := by
    intro heq
    rw [heq] at h
    exact Bool.false_ne_true h
  show (decide ('A'.val ≤ c.val ∧ c.val ≤ 'Z'.val)
    || (decide ('a'.val ≤ c.val) && decide (c.val ≤ 'z'.val)) || (c == '_')) = false
  rw [decide_eq_false fun hletter => hupper hletter.1, decide_eq_false hlower,
    beq_eq_false_iff_ne.mpr hunderscore]
  rfl

theorem not_isAlpha {c : Char} (h : c.isDigit) : c.isAlpha = false :=
  (Bool.or_eq_false_iff.mp (not_isNameStart h)).1

/-- A numeral is neither a name nor an operator, so it is a token only as a number. -/
theorem classify?_text (n : Numeral) :
    Token.classify? n.text = (readNumber? n.text).map fun value => .operand (.number value) := by
  obtain ⟨c, rest, hchars, hc⟩ := n.chars_eq_cons
  have hne : n.text ≠ "" := by
    intro h
    have hnil := congrArg String.toList h
    rw [toList_text, hchars] at hnil
    exact absurd hnil (by simp)
  rw [Token.classify?, if_neg hne]
  cases readNumber? n.text with
  | some value => rfl
  | none =>
      -- a numeral that is too large is neither a name nor an operator
      have hname : Token.isName n.text = false := by
        rw [Token.isName, toList_text, hchars, Token.isNameShape, not_isNameStart hc]
        rfl
      have hoperator : Operator.ofText? n.text = none := by
        rw [Option.eq_none_iff_forall_ne_some]
        intro op hop
        have htext := congrArg String.toList (Operator.ofText?_eq_some_iff.mp hop)
        rw [toList_text, hchars, Operator.text, String.toList_singleton] at htext
        rw [(List.cons.inj htext).1] at hc
        exact op.not_isDigit_symbol hc
      dsimp only
      rw [hname, hoperator]
      rfl

/-- Superfluous zeros in front do not change what a numeral reads as. -/
theorem readNumber?_trimmed (n : Numeral) : readNumber? n.trimmed.text = readNumber? n.text := by
  have hmagnitude : n.trimmed.literal.magnitude = n.literal.magnitude := by
    simp only [Literal.magnitude, literal, trimmed, natOfDigits_trimZeros]
  rw [readNumber?_text, readNumber?_text, Literal.value, hmagnitude]
  rfl

theorem classify?_trimmed (n : Numeral) :
    Token.classify? n.trimmed.text = Token.classify? n.text := by
  rw [classify?_text, classify?_text, readNumber?_trimmed]

/-! ## Bare zeros -/

/-- A bare zero is trimmed to a single `0`, and nothing else is. -/
theorem chars_trimmed_eq_zero_iff {n : Numeral} : n.trimmed.chars = ['0'] ↔ n.isZero := by
  have htrimmed : n.trimmed.chars = trimZeros n.whole ++ n.pointAndAfter := rfl
  rw [htrimmed, isZero, Bool.and_eq_true, ← trimZeros_eq_zero_iff]
  unfold pointAndAfter
  cases n.fraction with
  | none => simp
  | some digits =>
      -- with a point there are at least two characters
      obtain ⟨c, rest, hc⟩ := List.exists_cons_of_ne_nil (trimZeros_ne_nil n.whole)
      simp [hc]

theorem classify?_isSome_of_isZero {n : Numeral} (h : n.isZero) :
    (Token.classify? n.text).isSome := by
  obtain ⟨hfraction, hwhole⟩ := Bool.and_eq_true_iff.mp h
  have hnone : n.fraction = none := Option.isNone_iff_eq_none.mp hfraction
  have hdigits : n.literal.magnitude.digits = 0 := by
    show Literal.natOfDigits (n.whole ++ n.fraction.getD []) = 0
    rw [← natOfDigits_trimZeros, trimZeros_eq_zero_iff.mpr hwhole, hnone]
    rfl
  have hvalue : n.literal.value = .zero false := by
    rw [Literal.value, Decimal.toBinary64, if_pos hdigits]
    rfl
  rw [classify?_text, readNumber?_text, hvalue]
  rfl

end Numeral

end DeskCalculator
