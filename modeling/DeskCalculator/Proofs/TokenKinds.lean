import Mathlib.Computability.Language
import DeskCalculator.Proofs.PrintedRow

/-!
# The kinds of a text

Three readers look at a text, and none knows of the others: the reader of numbers,
which takes blanks, a sign and an exponent; the scan for a name; and the table of
the operators. Classification asks them in this order and takes the first answer.

**The order does not matter**, for at most one of them has an answer. A name starts
with a letter or an underscore and has no blank anywhere, so what the reader of
numbers is left with after trimming starts neither with a sign nor like a number;
and an operator is a sign alone, or not even that. So a text is a token of a kind
exactly if the reader of this kind has an answer, and whatever looks like a name is
one.
-/

namespace DeskCalculator

open scoped Computability

/-! ## Names as a language -/

/-- The texts of one character out of some ranges. -/
def oneOf (ranges : List (Char × Char)) : Language Char :=
  {word | ∃ c, word = [c] ∧ ∃ range ∈ ranges, range.1 ≤ c ∧ c ≤ range.2}

/-- `[A-Za-z_][A-Za-z0-9_]*` -/
def nameLanguage : Language Char :=
  oneOf [('A', 'Z'), ('a', 'z'), ('_', '_')]
    * (oneOf [('A', 'Z'), ('a', 'z'), ('0', '9'), ('_', '_')])∗

theorem singleton_mem_oneOf {ranges : List (Char × Char)} {c : Char} :
    [c] ∈ oneOf ranges ↔ ∃ range ∈ ranges, range.1 ≤ c ∧ c ≤ range.2 := by
  constructor
  · rintro ⟨d, hd, hrange⟩
    rwa [(List.cons.inj hd).1]
  · intro hrange
    exact ⟨c, rfl, hrange⟩

/-- A repetition has its characters from the ranges, one by one. -/
theorem mem_kstar_oneOf {ranges : List (Char × Char)} {word : List Char} :
    word ∈ (oneOf ranges)∗ ↔ ∀ c ∈ word, [c] ∈ oneOf ranges := by
  rw [Language.mem_kstar]
  constructor
  · rintro ⟨parts, rfl, hparts⟩ c hc
    obtain ⟨part, hpart, hcpart⟩ := List.mem_flatten.mp hc
    obtain ⟨d, rfl, hd⟩ := hparts part hpart
    rw [List.mem_singleton.mp hcpart]
    exact singleton_mem_oneOf.mpr hd
  · intro h
    -- a word is its characters, one after another
    refine ⟨word.map ([·]), ?_, ?_⟩
    · rw [← List.flatMap_def, List.flatMap_singleton']
    · intro part hpart
      obtain ⟨c, hc, rfl⟩ := List.mem_map.mp hpart
      exact h c hc

namespace Token

variable {text : String}

theorem isUpper_iff {c : Char} : c.isUpper ↔ 'A' ≤ c ∧ c ≤ 'Z' := decide_eq_true_iff

theorem isLower_iff {c : Char} : c.isLower ↔ 'a' ≤ c ∧ c ≤ 'z' :=
  Bool.and_eq_true_iff.trans (and_congr decide_eq_true_iff decide_eq_true_iff)

theorem isDigit_iff {c : Char} : c.isDigit ↔ '0' ≤ c ∧ c ≤ '9' :=
  Bool.and_eq_true_iff.trans (and_congr decide_eq_true_iff decide_eq_true_iff)

theorem isAlpha_iff {c : Char} : c.isAlpha ↔ c.isUpper ∨ c.isLower := Bool.or_eq_true_iff

theorem isAlphanum_iff {c : Char} : c.isAlphanum ↔ c.isAlpha ∨ c.isDigit := Bool.or_eq_true_iff

theorem eq_underscore_iff {c : Char} : c = '_' ↔ '_' ≤ c ∧ c ≤ '_' := by
  constructor
  · rintro rfl
    decide
  · intro h
    exact Char.le_antisymm h.2 h.1

theorem isNameStart_iff {c : Char} :
    isNameStart c ↔ [c] ∈ oneOf [('A', 'Z'), ('a', 'z'), ('_', '_')] := by
  rw [isNameStart, Bool.or_eq_true, beq_iff_eq, isAlpha_iff, isUpper_iff, isLower_iff,
    eq_underscore_iff, singleton_mem_oneOf, or_assoc]
  simp only [List.mem_cons, List.not_mem_nil, or_false, exists_eq_or_imp, exists_eq_left]

theorem isNamePart_iff {c : Char} :
    isNamePart c ↔ [c] ∈ oneOf [('A', 'Z'), ('a', 'z'), ('0', '9'), ('_', '_')] := by
  rw [isNamePart, Bool.or_eq_true, beq_iff_eq, isAlphanum_iff, isAlpha_iff, isUpper_iff,
    isLower_iff, isDigit_iff, eq_underscore_iff, singleton_mem_oneOf, or_assoc, or_assoc]
  simp only [List.mem_cons, List.not_mem_nil, or_false, exists_eq_or_imp, exists_eq_left]

/-- The scan goes by the language of names. -/
theorem isNameShape_iff_mem {chars : List Char} : isNameShape chars ↔ chars ∈ nameLanguage := by
  rw [nameLanguage, Language.mem_mul]
  constructor
  · intro h
    cases chars with
    | nil => cases h
    | cons first rest =>
        obtain ⟨hfirst, hrest⟩ := Bool.and_eq_true_iff.mp h
        refine ⟨[first], isNameStart_iff.mp hfirst, rest, mem_kstar_oneOf.mpr ?_, rfl⟩
        exact fun c hc => isNamePart_iff.mp (List.all_eq_true.mp hrest c hc)
  · rintro ⟨start, hstart, rest, hrest, rfl⟩
    obtain ⟨first, rfl, hfirst⟩ := hstart
    refine Bool.and_eq_true_iff.mpr ⟨?_, List.all_eq_true.mpr ?_⟩
    · exact isNameStart_iff.mpr (singleton_mem_oneOf.mpr hfirst)
    · exact fun c hc => isNamePart_iff.mpr (mem_kstar_oneOf.mp hrest c hc)

/-! ## What looks like a name is no number -/

theorem not_isBlank_of_isNamePart {c : Char} (h : isNamePart c) : Text.isBlank c = false := by
  rcases Bool.or_eq_true_iff.mp h with hplain | hunderscore
  · exact Text.not_isBlank_of_isAlphanum hplain
  · rw [beq_iff_eq.mp hunderscore]
    decide

theorem isNamePart_of_isNameStart {c : Char} (h : isNameStart c) : isNamePart c := by
  rcases Bool.or_eq_true_iff.mp h with hletter | hunderscore
  · exact Bool.or_eq_true_iff.mpr (Or.inl (Bool.or_eq_true_iff.mpr (Or.inl hletter)))
  · exact Bool.or_eq_true_iff.mpr (Or.inr hunderscore)

/-- A name starts with neither a sign nor a digit nor a point. -/
theorem startsNumber_of_isNameStart {c : Char} (h : isNameStart c) (rest : List Char) :
    startsNumber (c :: rest) = false := by
  have hne : ∀ d, isNameStart d = false → c ≠ d := by
    rintro d hd rfl
    rw [h] at hd
    cases hd
  have hdigit : c.isDigit = false := by
    rw [Bool.eq_false_iff]
    exact fun hdigit => Bool.false_ne_true ((Numeral.not_isNameStart hdigit).symm.trans h)
  -- a name starts with neither a sign, nor a digit, nor a point
  rw [startsNumber, Literal.splitSign_cons (hne '-' (by decide)) (hne '+' (by decide))]
  dsimp only
  rw [hdigit, Bool.false_or, beq_eq_false_iff_ne]
  exact hne '.' (by decide)

theorem readNumber?_of_isNameShape (h : isNameShape text.toList) : readNumber? text = none := by
  cases hchars : text.toList with
  | nil =>
      rw [hchars] at h
      cases h
  | cons first rest =>
      rw [hchars] at h
      obtain ⟨hfirst, hrest⟩ := Bool.and_eq_true_iff.mp h
      -- no character of a name is trimmed, so its first one decides
      have hblank : ∀ c ∈ first :: rest, Text.isBlank c = false := by
        rw [List.forall_mem_cons]
        refine ⟨not_isBlank_of_isNamePart (isNamePart_of_isNameStart hfirst), ?_⟩
        exact fun c hc => not_isBlank_of_isNamePart (List.all_eq_true.mp hrest c hc)
      rw [readNumber?, hchars, Text.trim_eq_self hblank, startsNumber_of_isNameStart hfirst]
      rfl

/-- **Whatever looks like a name is a name**: no number looks like one. -/
theorem isName_eq (text : String) : isName text = isNameShape text.toList := by
  rw [isName]
  cases hshape : isNameShape text.toList with
  | false => rfl
  | true =>
      rw [isNumeric, readNumber?_of_isNameShape hshape]
      rfl

/-! ## One kind at most -/

theorem classify?_eq_number_iff {value : Binary64} :
    classify? text = some (.operand (.number value)) ↔ readNumber? text = some value := by
  refine ⟨fun h => ?_, classify?_of_readNumber?⟩
  rcases classify?_cases h with ⟨v, hv, heq⟩ | ⟨_, _, heq⟩ | ⟨_, _, _, heq⟩
  · cases heq
    exact hv
  · cases heq
  · cases heq

theorem classify?_eq_name_iff {name : String} :
    classify? text = some (.operand (.name name)) ↔ isName text ∧ name = text := by
  constructor
  · intro h
    rcases classify?_cases h with ⟨_, _, heq⟩ | ⟨_, hname, heq⟩ | ⟨_, _, _, heq⟩
    · cases heq
    · cases heq
      exact ⟨hname, rfl⟩
    · cases heq
  · rintro ⟨hname, rfl⟩
    exact classify?_of_isName hname

theorem classify?_eq_operator_iff {op : Operator} :
    classify? text = some (.operator op) ↔ Operator.ofText? text = some op := by
  rw [Operator.ofText?_eq_some_iff]
  constructor
  · intro h
    rcases classify?_cases h with ⟨_, _, heq⟩ | ⟨_, _, heq⟩ | ⟨_, _, htext, heq⟩
    · cases heq
    · cases heq
    · cases heq
      exact htext
  · rintro rfl
    exact classify?_text op

theorem isNumeric_iff :
    isNumeric text ↔ ∃ value, classify? text = some (.operand (.number value)) := by
  rw [isNumeric, Option.isSome_iff_exists]
  exact exists_congr fun value => classify?_eq_number_iff.symm

theorem isName_iff : isName text ↔ ∃ name, classify? text = some (.operand (.name name)) := by
  constructor
  · intro h
    exact ⟨text, classify?_eq_name_iff.mpr ⟨h, rfl⟩⟩
  · rintro ⟨name, h⟩
    exact (classify?_eq_name_iff.mp h).1

theorem isSome_ofText?_iff :
    (Operator.ofText? text).isSome ↔ ∃ op, classify? text = some (.operator op) := by
  rw [Option.isSome_iff_exists]
  exact exists_congr fun op => classify?_eq_operator_iff.symm

theorem classify?_eq_none_iff :
    classify? text = none
      ↔ ¬isNumeric text ∧ ¬isName text ∧ ¬(Operator.ofText? text).isSome := by
  rw [isNumeric_iff, isName_iff, isSome_ofText?_iff]
  cases classify? text with
  | none => simp
  | some token =>
      -- a token is of one of the three kinds
      match token with
      | .operand (.number value) => simp
      | .operand (.name name) => simp
      | .operator op => simp

theorem isOperandText_iff :
    isOperandText text ↔ ∃ token, classify? text = some token ∧ token.isOperand := by
  rw [isOperandText, Bool.or_eq_true, isNumeric_iff, isName_iff]
  constructor
  · rintro (⟨value, h⟩ | ⟨name, h⟩)
    · exact ⟨_, h, rfl⟩
    · exact ⟨_, h, rfl⟩
  · rintro ⟨token, h, hoperand⟩
    match token, hoperand with
    | .operand (.number value), _ => exact Or.inl ⟨value, h⟩
    | .operand (.name name), _ => exact Or.inr ⟨name, h⟩

/--
**A text is of one kind at most, and classification says which.**

It is a number, a name or an operator exactly if the reader of numbers, the scan for
a name or the table of the operators has an answer, and no two of them have one. It
is no token exactly if none has. The operands are the tokens of the first two kinds.
And the names are all the texts of the language of names, for none of those is read as
a number.
-/
theorem classify?_kinds (text : String) :
    (¬(isNumeric text ∧ isName text)
        ∧ ¬(isNumeric text ∧ (Operator.ofText? text).isSome)
        ∧ ¬(isName text ∧ (Operator.ofText? text).isSome))
      ∧ ((∃ value, classify? text = some (.operand (.number value))) ↔ isNumeric text)
      ∧ ((∃ name, classify? text = some (.operand (.name name))) ↔ isName text)
      ∧ ((∃ op, classify? text = some (.operator op)) ↔ (Operator.ofText? text).isSome)
      ∧ (classify? text = none
        ↔ ¬isNumeric text ∧ ¬isName text ∧ ¬(Operator.ofText? text).isSome)
      ∧ (isOperandText text ↔ ∃ token, classify? text = some token ∧ token.isOperand)
      ∧ (isName text ↔ text.toList ∈ nameLanguage)
      ∧ isName text = isNameShape text.toList := by
  refine ⟨?_, isNumeric_iff.symm, isName_iff.symm, isSome_ofText?_iff.symm,
    classify?_eq_none_iff, isOperandText_iff, ?_, isName_eq text⟩
  · -- two answers would be two tokens of one text
    rw [isNumeric_iff, isName_iff, isSome_ofText?_iff]
    refine ⟨?_, ?_, ?_⟩
    · rintro ⟨⟨value, hnumber⟩, name, hname⟩
      rw [hnumber] at hname
      cases hname
    · rintro ⟨⟨value, hnumber⟩, op, hoperator⟩
      rw [hnumber] at hoperator
      cases hoperator
    · rintro ⟨⟨name, hname⟩, op, hoperator⟩
      rw [hname] at hoperator
      cases hoperator
  · rw [isName_eq]
    exact isNameShape_iff_mem

/-- `Infinity` looks like a name, and it is one; a sign alone is an operator. -/
example : isName "Infinity" ∧ classify? "-" = some (.operator .sub) ∧ classify? " x" = none := by
  decide +kernel

end Token

end DeskCalculator
