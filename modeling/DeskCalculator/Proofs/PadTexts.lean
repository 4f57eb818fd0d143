import DeskCalculator.Proofs.Entering
import DeskCalculator.Proofs.PrintedRow
import DeskCalculator.VariableField

/-!
# What can be pending

The pad adds digits and points to the pending text and takes characters off it,
without a look at what kind of text it is. It can start from a digit, from a
result, or from the name of the variable. So what can be pending is the beginning
of a word, then digits, and perhaps a point and further digits; a minus sign is
the beginning of a word too, for a negative infinity is shown as one.

Most of these texts are what they look like: a number, or the variable. Three
kinds are not. A word that is not the variable, because it was cut short, or got
digits behind it, or is the text of a result that is not finite; a minus sign and
a point without a digit; and a numeral that is too large for a finite double.

**Nothing else goes wrong.** A pending text of none of these kinds is a number,
the variable or an operator.
-/

namespace DeskCalculator

/-- The words that a key or a result puts into the pending text. -/
def padWords : List String := [VariableField.variableName, "inf", "-inf", "NaN"]

/-- What can be pending: it is started, and then digits and a point are added. -/
inductive IsPadText : List Char → Prop
  | digit {c : Char} : c.isDigit → IsPadText [c]
  | word {w : String} {stem : List Char} :
      w ∈ padWords → stem <+: w.toList → stem ≠ [] → IsPadText stem
  | addDigit {chars : List Char} {c : Char} : IsPadText chars → c.isDigit → IsPadText (chars ++ [c])
  | addPoint {chars : List Char} : IsPadText chars → '.' ∉ chars → IsPadText (chars ++ ['.'])

namespace IsPadText

/-- Taking the last character off undoes adding it, or cuts a word shorter. -/
theorem dropLast {chars : List Char} (h : IsPadText chars) (hlong : 1 < chars.length) :
    IsPadText chars.dropLast := by
  cases h with
  | digit _ => exact absurd hlong (Nat.lt_irrefl 1)
  | word hmem hstem _ =>
      refine word hmem ((List.dropLast_prefix _).trans hstem) ?_
      refine List.ne_nil_of_length_pos ?_
      rw [List.length_dropLast]
      omega
  | addDigit h _ => rwa [List.dropLast_concat]
  | addPoint h _ => rwa [List.dropLast_concat]

theorem append_digits {chars digits : List Char} (h : IsPadText chars)
    (hdigits : ∀ c ∈ digits, c.isDigit) : IsPadText (chars ++ digits) := by
  induction digits generalizing chars with
  | nil => rwa [List.append_nil]
  | cons c digits ih =>
      rw [List.append_cons]
      exact ih (h.addDigit (hdigits c List.mem_cons_self)) fun d hd =>
        hdigits d (List.mem_cons_of_mem c hd)

theorem append_pointAndAfter {chars : List Char} (h : IsPadText chars) (hpoint : '.' ∉ chars)
    (n : Numeral) : IsPadText (chars ++ n.pointAndAfter) := by
  unfold Numeral.pointAndAfter
  split
  · rwa [List.append_nil]
  · next digits hfraction =>
    rw [List.append_cons]
    exact (h.addPoint hpoint).append_digits (n.isDigit_fraction digits hfraction)

/-- Every numeral can be typed, and it can be the rest of a negative result. -/
theorem signed_numeral (negative : Bool) (n : Numeral) :
    IsPadText (Binary64.signText negative ++ n.chars) := by
  have hstart : IsPadText (Binary64.signText negative ++ n.whole) := by
    cases negative with
    | false =>
        obtain ⟨c, rest, hwhole⟩ := List.exists_cons_of_ne_nil n.whole_ne_nil
        have hdigits := n.isDigit_whole
        rw [hwhole] at hdigits ⊢
        exact (digit (hdigits c List.mem_cons_self)).append_digits fun d hd =>
          hdigits d (List.mem_cons_of_mem c hd)
    | true =>
        -- a sign alone is what delete leaves of a negative infinity
        have hminus : IsPadText ['-'] :=
          word (w := "-inf") (by decide) (by decide) (List.cons_ne_nil _ [])
        exact hminus.append_digits n.isDigit_whole
  have hpoint : '.' ∉ Binary64.signText negative ++ n.whole := by
    rw [List.mem_append]
    rintro (hsign | hwhole)
    · cases negative <;> exact absurd hsign (by decide)
    · exact Numeral.point_not_mem_digits n.isDigit_whole hwhole
  rw [Numeral.chars, ← List.append_assoc]
  exact hstart.append_pointAndAfter hpoint n

/-- **Every result is shown as a text that can be pending**, whether it is finite or not. -/
theorem text_result (v : Binary64) : IsPadText (Display.text v).toList := by
  match v with
  | .finite negative rank =>
      unfold Display.text
      split
      · exact digit (by decide)
      · rw [Binary64.text_finite, Numeral.toList_signedText]
        exact signed_numeral negative _
  | .infinite false =>
      exact word (w := "inf") (by decide) (List.prefix_refl _) (by decide)
  | .infinite true =>
      exact word (w := "-inf") (by decide) (List.prefix_refl _) (by decide)
  | .nan => exact word (w := "NaN") (by decide) (List.prefix_refl _) (by decide)

end IsPadText

/-! ## Three kinds of texts that are not what was meant -/

/-- A text that one of the keys was meant to put into the row. -/
def Proper (text : String) : Prop :=
  Token.isNumeric text ∨ text = VariableField.variableName ∨ Token.isOperatorText text

def hasLetter (text : String) : Bool := text.toList.any Char.isAlpha

/-- A number literal that is too large for a finite double. -/
def isTooLarge (text : String) : Bool :=
  (Literal.parse? text.toList).any fun l => !l.value.isFinite

/--
A word that is not the variable, a sign and a point without a digit, or a number
that is too large.
-/
def Spoiled (text : String) : Prop :=
  (hasLetter text ∧ text ≠ VariableField.variableName) ∨ text = "-." ∨ isTooLarge text

instance (text : String) : Decidable (Proper text) := inferInstanceAs (Decidable (_ ∨ _))

instance (text : String) : Decidable (Spoiled text) := inferInstanceAs (Decidable (_ ∨ _))

theorem Token.isOperatorText_iff {text : String} :
    isOperatorText text ↔ ∃ op : Operator, text = op.text := by
  rw [isOperatorText, Option.isSome_iff_exists]
  exact exists_congr fun op => Operator.ofText?_eq_some_iff

namespace Literal

theorem splitSign_of_isAlpha {c : Char} (hc : c.isAlpha) (rest : List Char) :
    splitSign (c :: rest) = (false, c :: rest) := by
  obtain ⟨hminus, hplus⟩ := ne_sign_of_isAlphanum (Bool.or_eq_true_iff.mpr (Or.inl hc))
  exact splitSign_cons hminus hplus rest

/-- A text with a letter behind its sign is no literal. -/
theorem parse?_eq_none {text rest : List Char} {negative : Bool} {c : Char}
    (hsign : splitSign text = (negative, c :: rest)) (hc : c.isAlpha) : parse? text = none := by
  have hdigit : ¬c.isDigit = true := fun hdigit =>
    Bool.false_ne_true ((Numeral.not_isAlpha hdigit).symm.trans hc)
  -- neither a whole part nor a fraction, so there is no mantissa
  have hfraction : splitFraction (c :: rest) = ([], c :: rest) := by
    unfold splitFraction
    split
    · next heq =>
      rw [(List.cons.inj heq).1] at hc
      exact absurd hc (by decide)
    · rfl
  simp only [parse?, hsign, List.takeWhile_cons_of_neg hdigit, List.dropWhile_cons_of_neg hdigit,
    hfraction]
  exact if_pos ⟨trivial, trivial⟩

/-- Behind a sign, a point needs a digit to be a literal. -/
theorem parse?_fraction {digits : List Char} (h : ∀ c ∈ digits, c.isDigit) (hne : digits ≠ []) :
    (parse? ('-' :: '.' :: digits)).isSome := by
  have hsign : splitSign ('-' :: '.' :: digits) = (true, '.' :: digits) := rfl
  have hpoint : ¬('.').isDigit = true := by decide
  have hfraction : splitFraction ('.' :: digits) = (digits, []) := by
    rw [splitFraction, ← List.append_nil digits, List.takeWhile_append_of_pos h,
      List.dropWhile_append_of_pos h]
    simp
  simp only [parse?, hsign, List.takeWhile_cons_of_neg hpoint, List.dropWhile_cons_of_neg hpoint,
    hfraction]
  rw [if_neg fun hnone => hne hnone.2]
  rfl

theorem parse?_operator (op : Operator) : parse? op.text.toList = none := by
  cases op <;> decide

end Literal

theorem hasLetter_text (op : Operator) : hasLetter op.text = false := by
  cases op <;> decide

namespace IsPadText

theorem isBlank_eq_false {chars : List Char} (h : IsPadText chars) :
    ∀ c ∈ chars, Text.isBlank c = false := by
  induction h with
  | digit hdigit =>
      intro c hc
      rw [List.mem_singleton.mp hc]
      exact Numeral.isBlank_eq_false (Or.inl hdigit)
  | word hmem hstem _ =>
      -- the words are few enough to look at every character
      have hwords : (padWords.flatMap String.toList).all (!Text.isBlank ·) := by decide
      intro c hc
      have hletter := List.all_eq_true.mp hwords c (List.mem_flatMap.mpr ⟨_, hmem, hstem.subset hc⟩)
      simpa using hletter
  | addDigit _ hdigit ih =>
      intro c hc
      rcases List.mem_append.mp hc with hc | hc
      · exact ih c hc
      · rw [List.mem_singleton.mp hc]
        exact Numeral.isBlank_eq_false (Or.inl hdigit)
  | addPoint _ _ ih =>
      intro c hc
      rcases List.mem_append.mp hc with hc | hc
      · exact ih c hc
      · exact Numeral.isBlank_eq_false (Or.inr (List.mem_singleton.mp hc))

/-- A word stays a word: its first letter stands at the start or behind the sign. -/
theorem exists_letter {chars : List Char} (h : IsPadText chars) (hletter : chars.any Char.isAlpha) :
    ∃ c rest, c.isAlpha ∧ (chars = c :: rest ∨ chars = '-' :: c :: rest) := by
  induction h with
  | @digit c _ => exact ⟨c, [], by simpa using hletter, Or.inl rfl⟩
  | @word w stem hmem hstem hne =>
      have hwords : ∀ w ∈ padWords, ∃ c rest, c.isAlpha
          ∧ (w.toList = c :: rest ∨ w.toList = '-' :: c :: rest) := by
        simp only [padWords, List.forall_mem_cons]
        exact ⟨⟨'X', [], rfl, Or.inl rfl⟩, ⟨'i', ['n', 'f'], rfl, Or.inl rfl⟩,
          ⟨'i', ['n', 'f'], rfl, Or.inr rfl⟩, ⟨'N', ['a', 'N'], rfl, Or.inl rfl⟩, nofun⟩
      obtain ⟨c, rest, hc, hw | hw⟩ := hwords w hmem
      · rw [hw] at hstem
        rcases List.prefix_cons_iff.mp hstem with hnil | ⟨cut, hcut, _⟩
        · exact absurd hnil hne
        · exact ⟨c, cut, hc, Or.inl hcut⟩
      · rw [hw] at hstem
        rcases List.prefix_cons_iff.mp hstem with hnil | ⟨unsigned, rfl, hunsigned⟩
        · exact absurd hnil hne
        · rcases List.prefix_cons_iff.mp hunsigned with rfl | ⟨cut, rfl, _⟩
          · -- only the sign is left of the word
            exact absurd hletter (by decide)
          · exact ⟨c, cut, hc, Or.inr rfl⟩
  | @addDigit chars c _ hdigit ih =>
      rw [List.any_append, Bool.or_eq_true] at hletter
      rcases hletter with hletter | hlast
      · obtain ⟨first, rest, hfirst, hchars⟩ := ih hletter
        exact ⟨first, rest ++ [c], hfirst, hchars.imp (congrArg (· ++ [c])) (congrArg (· ++ [c]))⟩
      · rw [List.any_cons, Numeral.not_isAlpha hdigit] at hlast
        exact absurd hlast (by decide)
  | @addPoint chars _ _ ih =>
      rw [List.any_append, Bool.or_eq_true] at hletter
      rcases hletter with hletter | hlast
      · obtain ⟨first, rest, hfirst, hchars⟩ := ih hletter
        exact ⟨first, rest ++ ['.'], hfirst,
          hchars.imp (congrArg (· ++ ['.'])) (congrArg (· ++ ['.']))⟩
      · exact absurd hlast (by decide)

/-- Behind the sign a literal has a digit or a point, so a word is no literal. -/
theorem parse?_of_letter {chars : List Char} (h : IsPadText chars)
    (hletter : chars.any Char.isAlpha) : Literal.parse? chars = none := by
  obtain ⟨c, rest, hc, rfl | rfl⟩ := h.exists_letter hletter
  · exact Literal.parse?_eq_none (Literal.splitSign_of_isAlpha hc rest) hc
  · exact Literal.parse?_eq_none rfl hc

/-- Without a letter: a sign alone, a numeral with or without it, or a sign and a fraction. -/
theorem cases_of_no_letter {chars : List Char} (h : IsPadText chars)
    (hletter : ¬chars.any Char.isAlpha) :
    chars = ['-']
      ∨ (∃ negative, ∃ n : Numeral, chars = Binary64.signText negative ++ n.chars)
      ∨ ∃ digits, (∀ c ∈ digits, c.isDigit) ∧ chars = '-' :: '.' :: digits := by
  induction h with
  | @digit c hdigit => exact Or.inr (Or.inl ⟨false, Numeral.ofDigit c hdigit, rfl⟩)
  | @word w stem hmem hstem hne =>
      have hwords : ∀ w ∈ padWords, ∀ stem ∈ w.toList.inits,
          stem = [] ∨ stem = ['-'] ∨ stem.any Char.isAlpha := by decide
      rcases hwords w hmem stem ((List.mem_inits _ _).mpr hstem) with hnil | hminus | hany
      · exact absurd hnil hne
      · exact Or.inl hminus
      · exact absurd hany hletter
  | @addDigit chars c _ hdigit ih =>
      have hbefore : ¬chars.any Char.isAlpha := fun hany =>
        hletter (by rw [List.any_append, hany, Bool.true_or])
      rcases ih hbefore with rfl | ⟨negative, n, rfl⟩ | ⟨digits, hdigits, rfl⟩
      · -- the first digit behind a lone sign makes it a numeral
        exact Or.inr (Or.inl ⟨true, Numeral.ofDigit c hdigit, rfl⟩)
      · refine Or.inr (Or.inl ⟨negative, n.addDigit hdigit, ?_⟩)
        rw [Numeral.chars_addDigit, List.append_assoc]
      · refine Or.inr (Or.inr ⟨digits ++ [c], List.forall_mem_append.mpr ⟨hdigits, ?_⟩, rfl⟩)
        exact fun d hd => List.mem_singleton.mp hd ▸ hdigit
  | @addPoint chars _ hpoint ih =>
      have hbefore : ¬chars.any Char.isAlpha := fun hany =>
        hletter (by rw [List.any_append, hany, Bool.true_or])
      rcases ih hbefore with rfl | ⟨negative, n, rfl⟩ | ⟨digits, _, rfl⟩
      · exact Or.inr (Or.inr ⟨[], nofun, rfl⟩)
      · refine Or.inr (Or.inl ⟨negative, n.addPoint, ?_⟩)
        rw [Numeral.chars_addPoint fun hmem => hpoint (List.mem_append_right _ hmem),
          List.append_assoc]
      · exact absurd (List.mem_cons_of_mem _ List.mem_cons_self) hpoint

/-- Without a letter, only a sign is no literal, with or without a point. -/
theorem eq_sign_of_parse?_eq_none {chars : List Char} (h : IsPadText chars)
    (hletter : ¬chars.any Char.isAlpha) (hnone : Literal.parse? chars = none) :
    chars = ['-'] ∨ chars = ['-', '.'] := by
  rcases h.cases_of_no_letter hletter with hminus | ⟨negative, n, rfl⟩ | ⟨digits, hdigits, rfl⟩
  · exact Or.inl hminus
  · rw [Numeral.parse?_signed] at hnone
    cases hnone
  · by_cases hempty : digits = []
    · rw [hempty]
      exact Or.inr rfl
    · have hsome := Literal.parse?_fraction hdigits hempty
      rw [hnone] at hsome
      cases hsome

theorem isNumeric_eq {text : String} (h : IsPadText text.toList) :
    Token.isNumeric text = (Literal.parse? text.toList).any fun l => l.value.isFinite := by
  rw [Token.isNumeric, readNumber?_eq, Text.trim_eq_self h.isBlank_eq_false]
  cases Literal.parse? text.toList with
  | none => rfl
  | some l =>
      rw [Option.map_some, Option.any_some, Option.filter_some]
      split
      · next hfinite => exact hfinite.symm
      · next hinfinite => exact (Bool.eq_false_of_not_eq_true hinfinite).symm

/-- A word is proper only as the variable. -/
theorem proper_iff_of_letter {text : String} (h : IsPadText text.toList)
    (hletter : hasLetter text) :
    (Proper text ↔ text = VariableField.variableName)
      ∧ (Spoiled text ↔ text ≠ VariableField.variableName) := by
  -- a text with a letter is a name at best, and X is the only proper one
  have hparse : Literal.parse? text.toList = none := h.parse?_of_letter hletter
  refine ⟨⟨?_, fun hvariable => Or.inr (Or.inl hvariable)⟩, ⟨?_, fun hne => Or.inl ⟨hletter, hne⟩⟩⟩
  · rintro (hnumeric | hvariable | hoperator)
    · rw [h.isNumeric_eq, hparse] at hnumeric
      cases hnumeric
    · exact hvariable
    · obtain ⟨op, rfl⟩ := Token.isOperatorText_iff.mp hoperator
      rw [hasLetter_text] at hletter
      cases hletter
  · rintro (⟨_, hne⟩ | rfl | hlarge)
    · exact hne
    · exact absurd hletter (by decide)
    · rw [isTooLarge, hparse] at hlarge
      cases hlarge

/-- A literal is proper only as a finite double. -/
theorem proper_iff_of_literal {text : String} (h : IsPadText text.toList) {l : Literal}
    (hparse : Literal.parse? text.toList = some l) :
    (Proper text ↔ l.value.isFinite) ∧ (Spoiled text ↔ ¬l.value.isFinite) := by
  -- a literal is proper or spoiled by its value alone
  have hnumeric : Token.isNumeric text = l.value.isFinite := by
    rw [h.isNumeric_eq, hparse, Option.any_some]
  have hlarge : isTooLarge text = !l.value.isFinite := by
    rw [isTooLarge, hparse, Option.any_some]
  have hvariable : Literal.parse? VariableField.variableName.toList = none := by decide
  have hpoint : Literal.parse? "-.".toList = none := by decide
  refine ⟨⟨?_, fun hfinite => Or.inl (hnumeric.trans hfinite)⟩,
    ⟨?_, fun hinfinite => Or.inr (Or.inr ?_)⟩⟩
  · rintro (hfinite | rfl | hoperator)
    · exact hnumeric.symm.trans hfinite
    · rw [hvariable] at hparse
      cases hparse
    · obtain ⟨op, rfl⟩ := Token.isOperatorText_iff.mp hoperator
      rw [Literal.parse?_operator] at hparse
      cases hparse
  · rintro (⟨hletter, _⟩ | rfl | hinfinite)
    · rw [h.parse?_of_letter hletter] at hparse
      cases hparse
    · rw [hpoint] at hparse
      cases hparse
    · rw [hlarge] at hinfinite
      simpa using hinfinite
  · rw [hlarge]
    simpa using hinfinite

/-- **A text that can be pending is proper unless it is spoiled**, and it is never both. -/
theorem proper_iff {text : String} (h : IsPadText text.toList) : Proper text ↔ ¬Spoiled text := by
  by_cases hletter : hasLetter text
  · obtain ⟨hproper, hspoiled⟩ := h.proper_iff_of_letter hletter
    rw [hproper, hspoiled, not_not]
  · cases hparse : Literal.parse? text.toList with
    | some l =>
        obtain ⟨hproper, hspoiled⟩ := h.proper_iff_of_literal hparse
        rw [hproper, hspoiled, not_not]
    | none =>
        rcases h.eq_sign_of_parse?_eq_none hletter hparse with hminus | hpoint
        · -- the sign that is left of a negative result is an operator by itself
          have htext : text = "-" := String.toList_inj.mp hminus
          rw [htext]
          decide
        · have htext : text = "-." := String.toList_inj.mp hpoint
          rw [htext]
          decide

end IsPadText

theorem proper_iff_of_operator (op : Operator) : Proper op.text ↔ ¬Spoiled op.text := by
  cases op <;> decide

/-- A proper text is a token, and as a name it is the variable. -/
theorem Proper.classify?_isSome {text : String} (h : Proper text) :
    (Token.classify? text).isSome := by
  rcases h with hnumeric | rfl | hoperator
  · obtain ⟨value, hvalue⟩ := Option.isSome_iff_exists.mp hnumeric
    rw [Token.classify?_of_readNumber? hvalue]
    rfl
  · decide
  · obtain ⟨op, rfl⟩ := Token.isOperatorText_iff.mp hoperator
    rw [Token.classify?_text]
    rfl

theorem Proper.eq_variable {text : String} (h : Proper text)
    (hname : Token.classify? text = some (.operand (.name text))) :
    text = VariableField.variableName := by
  rcases h with hnumeric | hvariable | hoperator
  · obtain ⟨value, hvalue⟩ := Option.isSome_iff_exists.mp hnumeric
    rw [Token.classify?_of_readNumber? hvalue] at hname
    cases hname
  · exact hvariable
  · obtain ⟨op, rfl⟩ := Token.isOperatorText_iff.mp hoperator
    rw [Token.classify?_text] at hname
    cases hname

end DeskCalculator
