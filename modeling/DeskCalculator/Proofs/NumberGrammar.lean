import DeskCalculator.Proofs.NearestStep
import DeskCalculator.Proofs.PadTexts

/-!
# The grammar of numbers

Which texts are numbers, and which numbers they are, is said here as a grammar with
one relation for each of its parts: a sign, a mantissa with at least one digit, and
an exponent. The reader goes over the text from left to right and never back, and
this is enough: no part starts with a character that the one before it could take.

**Reading is the grammar, rounded.** A text is read exactly when, but for the blanks
around it, it is a number of the grammar that is not too large for a finite double.
It is read as the nearest double and keeps its sign, also when it is zero. The words
for infinities and NaN are refused, and so is a lone point.
-/

namespace DeskCalculator

namespace Grammar

open Literal (natOfDigits)

/-- An optional sign; the flag says whether it is a minus. -/
inductive Sign : List Char → Bool → Prop where
  | none : Sign [] false
  | plus : Sign ['+'] false
  | minus : Sign ['-'] true

/-- Digits with at most one point among them; at least one digit. -/
inductive Mantissa : List Char → ℚ → Prop where
  | whole {digits : List Char} : digits ≠ [] → (∀ c ∈ digits, c.isDigit) →
      Mantissa digits (natOfDigits digits)
  | point {whole fraction : List Char} : whole ≠ [] ∨ fraction ≠ [] →
      (∀ c ∈ whole, c.isDigit) → (∀ c ∈ fraction, c.isDigit) →
      Mantissa (whole ++ '.' :: fraction)
        (natOfDigits whole + natOfDigits fraction / 10 ^ fraction.length)

/-- An optional power of ten: a letter, an optional sign, and at least one digit. -/
inductive Exponent : List Char → Int → Prop where
  | none : Exponent [] 0
  | power {letter : Char} {sign digits : List Char} {negative : Bool} :
      letter = 'e' ∨ letter = 'E' → Sign sign negative →
      digits ≠ [] → (∀ c ∈ digits, c.isDigit) →
      Exponent (letter :: (sign ++ digits))
        (if negative then -(natOfDigits digits : Int) else natOfDigits digits)

/-- A number, its sign apart from its magnitude, so that a zero has one, too. -/
inductive Number : List Char → Bool → ℚ → Prop where
  | mk {sign mantissa exponent : List Char} {negative : Bool} {x : ℚ} {power : Int} :
      Sign sign negative → Mantissa mantissa x → Exponent exponent power →
      Number (sign ++ mantissa ++ exponent) negative (x * 10 ^ power)

/-- A word that says a double without digits, in upper or lower case. -/
inductive Word : List Char → Prop where
  | mk {sign word : List Char} {negative : Bool} : Sign sign negative →
      word.map Char.toLower ∈ ["inf".toList, "infinity".toList, "nan".toList] →
      Word (sign ++ word)

/-! ## The parts, one by one -/

variable {text tail : List Char} {negative : Bool} {x : ℚ} {power : Int}

theorem exists_sign (text : List Char) :
    ∃ sign, text = sign ++ (Literal.splitSign text).2 ∧ Sign sign (Literal.splitSign text).1 := by
  unfold Literal.splitSign
  split
  · exact ⟨['-'], rfl, .minus⟩
  · exact ⟨['+'], rfl, .plus⟩
  · exact ⟨[], rfl, .none⟩

theorem ne_sign_of_isDigit {c : Char} (h : c.isDigit) : c ≠ '-' ∧ c ≠ '+' :=
  Literal.ne_sign_of_isAlphanum (Bool.or_eq_true_iff.mpr (Or.inr h))

theorem splitSign_append {sign rest : List Char} {c : Char} (h : Sign sign negative)
    (hminus : c ≠ '-') (hplus : c ≠ '+') :
    Literal.splitSign (sign ++ c :: rest) = (negative, c :: rest) := by
  cases h with
  | none => exact Literal.splitSign_cons hminus hplus rest
  | plus => rfl
  | minus => rfl

/-- A row of digits ends where something else begins. -/
theorem splitDigits_append {digits rest : List Char} (h : ∀ c ∈ digits, c.isDigit)
    (hrest : ∀ c ∈ rest.head?, ¬c.isDigit) :
    (digits ++ rest).takeWhile Char.isDigit = digits
      ∧ (digits ++ rest).dropWhile Char.isDigit = rest := by
  rw [List.takeWhile_append_of_pos h, List.dropWhile_append_of_pos h]
  cases rest with
  | nil => exact ⟨List.append_nil digits, rfl⟩
  | cons c rest =>
      have hstop := hrest c rfl
      rw [List.takeWhile_cons_of_neg hstop, List.dropWhile_cons_of_neg hstop, List.append_nil]
      exact ⟨rfl, rfl⟩

theorem exponent_of_parseExponent? (h : Literal.parseExponent? text = some power) :
    Exponent text power := by
  cases text with
  | nil =>
      cases h
      exact .none
  | cons letter rest =>
      -- an exponent is a letter, perhaps a sign, and at least one digit
      obtain ⟨sign, hrest, hsign⟩ := exists_sign rest
      simp only [Literal.parseExponent?, Literal.exponentDigits?] at h
      split at h
      · next hletter =>
        split at h
        · next hdigits =>
          rw [← Option.some.inj h]
          have hpower := Exponent.power hletter hsign hdigits.1 (List.all_eq_true.mp hdigits.2)
          rwa [← hrest] at hpower
        · cases h
      · cases h

theorem parseExponent?_of_exponent (h : Exponent text power) :
    Literal.parseExponent? text = some power := by
  cases h with
  | none => rfl
  | @power letter sign digits negative hletter hsign hne hdigits =>
      obtain ⟨c, rest, rfl⟩ := List.exists_cons_of_ne_nil hne
      obtain ⟨hminus, hplus⟩ := ne_sign_of_isDigit (hdigits c List.mem_cons_self)
      rw [Literal.parseExponent?, if_pos hletter, splitSign_append hsign hminus hplus]
      exact if_pos ⟨hne, List.all_eq_true.mpr hdigits⟩

/-- What comes after the mantissa is not taken for a part of it. -/
theorem head?_exponent (h : Exponent tail power) : ∀ c ∈ tail.head?, ¬c.isDigit ∧ c ≠ '.' := by
  cases h with
  | none => exact nofun
  | power hletter =>
      intro c hc
      rw [← Option.some.inj hc]
      rcases hletter with rfl | rfl
      · decide
      · decide

theorem splitFraction_of_head? (h : ∀ c ∈ tail.head?, c ≠ '.') :
    Literal.splitFraction tail = ([], tail) := by
  unfold Literal.splitFraction
  split
  · exact absurd rfl (h '.' rfl)
  · rfl

theorem natOfDigits_append (whole fraction : List Char) :
    (natOfDigits (whole ++ fraction) : ℚ)
      = (natOfDigits whole + natOfDigits fraction / 10 ^ fraction.length)
        * 10 ^ fraction.length := by
  have hpow : (10 : ℚ) ^ fraction.length ≠ 0 := by positivity
  rw [add_mul, div_mul_cancel₀ _ hpow, natOfDigits, Nat.ofDigitChars_append,
    Nat.ofDigitChars_eq_ofDigitChars_zero, mul_comm]
  push_cast
  rfl

theorem exists_mantissa {unsigned fraction : List Char}
    (hsplit : Literal.splitFraction (unsigned.dropWhile Char.isDigit) = (fraction, tail))
    (hne : ¬(unsigned.takeWhile Char.isDigit = [] ∧ fraction = [])) :
    ∃ mantissa x, unsigned = mantissa ++ tail ∧ Mantissa mantissa x
      ∧ (natOfDigits (unsigned.takeWhile Char.isDigit ++ fraction) : ℚ)
        = x * 10 ^ fraction.length := by
  have hunsigned := List.takeWhile_append_dropWhile (p := Char.isDigit) (l := unsigned)
  have hwhole : ∀ c ∈ unsigned.takeWhile Char.isDigit, c.isDigit :=
    List.all_eq_true.mp List.all_takeWhile
  generalize unsigned.takeWhile Char.isDigit = whole at hunsigned hwhole hne
  generalize unsigned.dropWhile Char.isDigit = rest at hunsigned hsplit
  unfold Literal.splitFraction at hsplit
  split at hsplit
  · -- a point, which one of the two rows of digits next to it may be missing
    next rest =>
    cases hsplit
    refine ⟨whole ++ '.' :: rest.takeWhile Char.isDigit, _, ?_,
      .point (not_and_or.mp hne) hwhole (List.all_eq_true.mp List.all_takeWhile),
      natOfDigits_append _ _⟩
    rw [List.append_assoc, List.cons_append, List.takeWhile_append_dropWhile, hunsigned]
  · -- no point, so the digits are there
    cases hsplit
    refine ⟨whole, _, hunsigned.symm, .whole (fun h => hne ⟨h, rfl⟩) hwhole, ?_⟩
    rw [List.append_nil, List.length_nil, pow_zero, mul_one]

theorem splitMantissa_append {mantissa : List Char} (h : Mantissa mantissa x)
    (htail : ∀ c ∈ tail.head?, ¬c.isDigit ∧ c ≠ '.') :
    ∃ whole fraction, (mantissa ++ tail).takeWhile Char.isDigit = whole
      ∧ Literal.splitFraction ((mantissa ++ tail).dropWhile Char.isDigit) = (fraction, tail)
      ∧ ¬(whole = [] ∧ fraction = [])
      ∧ (natOfDigits (whole ++ fraction) : ℚ) = x * 10 ^ fraction.length := by
  cases h with
  | whole hne hdigits =>
      obtain ⟨htake, hdrop⟩ := splitDigits_append hdigits fun c hc => (htail c hc).1
      refine ⟨_, [], htake, ?_, fun h => hne h.1, ?_⟩
      · rw [hdrop, splitFraction_of_head? fun c hc => (htail c hc).2]
      · rw [List.append_nil, List.length_nil, pow_zero, mul_one]
  | @point whole fraction hne hwhole hfraction =>
      -- the whole part ends at the point, whether or not it is empty
      have hpoint : ∀ c ∈ ('.' :: fraction ++ tail).head?, ¬c.isDigit := by
        intro c hc
        rw [← Option.some.inj hc]
        decide
      obtain ⟨htake, hdrop⟩ := splitDigits_append hwhole hpoint
      obtain ⟨htake', hdrop'⟩ := splitDigits_append hfraction fun c hc => (htail c hc).1
      refine ⟨whole, fraction, ?_, ?_, not_and_or.mpr hne, natOfDigits_append _ _⟩
      · rw [List.append_assoc, htake]
      · rw [List.append_assoc, hdrop, List.cons_append, Literal.splitFraction, htake', hdrop']

/-! ## Numbers -/

theorem value_magnitude (l : Literal) (h : (natOfDigits (l.whole ++ l.fraction) : ℚ)
    = x * 10 ^ l.fraction.length) : l.magnitude.value = x * 10 ^ l.exponent := by
  rw [Literal.magnitude, Decimal.value, h, zpow_sub₀ (by norm_num), zpow_natCast]
  field_simp

/-- What is read is a number, with the sign and the magnitude that are read. -/
theorem number_of_parse? {l : Literal} (h : Literal.parse? text = some l) :
    Number text l.negative l.magnitude.value := by
  obtain ⟨sign, htext, hsign⟩ := exists_sign text
  rw [Literal.parse?] at h
  generalize hsplit : Literal.splitSign text = split at h hsign htext
  obtain ⟨negative, unsigned⟩ := split
  dsimp only at h hsign htext
  generalize hrest : Literal.splitFraction (unsigned.dropWhile Char.isDigit) = rest at h
  obtain ⟨fraction, tail⟩ := rest
  dsimp only at h
  split at h
  · cases h
  · next hne =>
    -- sign, mantissa and exponent are split off one after another, as in the grammar
    obtain ⟨power, hpower, rfl⟩ := Option.map_eq_some_iff.mp h
    obtain ⟨mantissa, x, hunsigned, hmantissa, hvalue⟩ := exists_mantissa hrest hne
    rw [value_magnitude _ hvalue, htext, hunsigned, ← List.append_assoc]
    exact .mk hsign hmantissa (exponent_of_parseExponent? hpower)

theorem exists_cons_of_mantissa {mantissa : List Char} (h : Mantissa mantissa x) :
    ∃ c rest, mantissa = c :: rest ∧ c ≠ '-' ∧ c ≠ '+' := by
  cases h with
  | whole hne hdigits =>
      obtain ⟨c, rest, rfl⟩ := List.exists_cons_of_ne_nil hne
      exact ⟨c, rest, rfl, ne_sign_of_isDigit (hdigits c List.mem_cons_self)⟩
  | @point whole fraction _ hwhole _ =>
      cases whole with
      | nil => exact ⟨'.', fraction, rfl, by decide, by decide⟩
      | cons c rest =>
          exact ⟨c, rest ++ '.' :: fraction, rfl, ne_sign_of_isDigit (hwhole c List.mem_cons_self)⟩

/-- A number is read, with its sign and its magnitude. -/
theorem parse?_of_number (h : Number text negative x) :
    ∃ l, Literal.parse? text = some l ∧ l.negative = negative ∧ l.magnitude.value = x := by
  obtain ⟨hsign, hmantissa, hexponent⟩ := h
  obtain ⟨c, rest, hcons, hminus, hplus⟩ := exists_cons_of_mantissa hmantissa
  obtain ⟨whole, fraction, htake, hsplit, hne, hvalue⟩ :=
    splitMantissa_append hmantissa (head?_exponent hexponent)
  -- the mantissa starts with no sign, so that what is split off is the one in front
  rw [List.append_assoc]
  rw [hcons, List.cons_append] at htake hsplit ⊢
  refine ⟨_, ?_, rfl, value_magnitude ⟨_, whole, fraction, _⟩ hvalue⟩
  rw [Literal.parse?, splitSign_append hsign hminus hplus]
  dsimp only
  rw [htake, hsplit]
  dsimp only
  rw [if_neg hne, parseExponent?_of_exponent hexponent]
  rfl

/-- **The reader knows the grammar.** -/
theorem number_iff : Number text negative x
    ↔ ∃ l, Literal.parse? text = some l ∧ l.negative = negative ∧ l.magnitude.value = x := by
  constructor
  · exact parse?_of_number
  · rintro ⟨l, hparse, rfl, rfl⟩
    exact number_of_parse? hparse

/-! ## No blanks -/

theorem not_isBlank_of_sign {sign : List Char} (h : Sign sign negative) :
    ∀ c ∈ sign, Text.isBlank c = false := by
  cases h with
  | none => exact nofun
  | plus => exact List.forall_mem_singleton.mpr rfl
  | minus => exact List.forall_mem_singleton.mpr rfl

theorem not_isBlank_of_mantissa {mantissa : List Char} (h : Mantissa mantissa x) :
    ∀ c ∈ mantissa, Text.isBlank c = false := by
  cases h with
  | whole _ hdigits => exact fun c hc => Numeral.isBlank_eq_false (Or.inl (hdigits c hc))
  | point _ hwhole hfraction =>
      intro c hc
      rcases List.mem_append.mp hc with hc | hc
      · exact Numeral.isBlank_eq_false (Or.inl (hwhole c hc))
      · rcases List.mem_cons.mp hc with hpoint | hc
        · exact Numeral.isBlank_eq_false (Or.inr hpoint)
        · exact Numeral.isBlank_eq_false (Or.inl (hfraction c hc))

theorem not_isBlank_of_exponent (h : Exponent text power) : ∀ c ∈ text, Text.isBlank c = false := by
  cases h with
  | none => exact nofun
  | power hletter hsign _ hdigits =>
      intro c hc
      rcases List.mem_cons.mp hc with rfl | hc
      · rcases hletter with rfl | rfl
        · decide
        · decide
      · rcases List.mem_append.mp hc with hc | hc
        · exact not_isBlank_of_sign hsign c hc
        · exact Numeral.isBlank_eq_false (Or.inl (hdigits c hc))

theorem not_isBlank_of_number (h : Number text negative x) :
    ∀ c ∈ text, Text.isBlank c = false := by
  obtain ⟨hsign, hmantissa, hexponent⟩ := h
  intro c hc
  rcases List.mem_append.mp hc with hc | hc
  · rcases List.mem_append.mp hc with hc | hc
    · exact not_isBlank_of_sign hsign c hc
    · exact not_isBlank_of_mantissa hmantissa c hc
  · exact not_isBlank_of_exponent hexponent c hc

theorem isAlpha_of_toLower {c : Char} (h : c.toLower.isAlpha) : c.isAlpha := by
  by_cases hupper : c.isUpper
  · exact Bool.or_eq_true_iff.mpr (Or.inl hupper)
  · have hsame : c.toLower = c := dif_neg fun hbounds => hupper (decide_eq_true hbounds)
    rwa [hsame] at h

/-- In upper or lower case, words are letters. -/
theorem isAlpha_of_word {word : List Char}
    (h : word.map Char.toLower ∈ ["inf".toList, "infinity".toList, "nan".toList]) :
    word ≠ [] ∧ ∀ c ∈ word, c.isAlpha := by
  have hwords : ["inf".toList, "infinity".toList, "nan".toList].all
      fun w => w != [] && w.all Char.isAlpha := by decide
  obtain ⟨hne, hletters⟩ := Bool.and_eq_true_iff.mp (List.all_eq_true.mp hwords _ h)
  refine ⟨fun hnil => ?_, fun c hc => ?_⟩
  · rw [hnil, List.map_nil] at hne
    cases hne
  · exact isAlpha_of_toLower (List.all_eq_true.mp hletters c.toLower (List.mem_map_of_mem hc))

theorem not_isBlank_of_word (h : Word text) : ∀ c ∈ text, Text.isBlank c = false := by
  obtain ⟨hsign, hword⟩ := h
  intro c hc
  rcases List.mem_append.mp hc with hc | hc
  · exact not_isBlank_of_sign hsign c hc
  · have hletter := (isAlpha_of_word hword).2 c hc
    exact Text.not_isBlank_of_isAlphanum (Bool.or_eq_true_iff.mpr (Or.inl hletter))

theorem parse?_of_word (h : Word text) : Literal.parse? text = none := by
  obtain ⟨hsign, hword⟩ := h
  obtain ⟨hne, hletters⟩ := isAlpha_of_word hword
  obtain ⟨c, rest, rfl⟩ := List.exists_cons_of_ne_nil hne
  have hletter := hletters c List.mem_cons_self
  have hplain : c.isAlphanum := Bool.or_eq_true_iff.mpr (Or.inl hletter)
  obtain ⟨hminus, hplus⟩ := Literal.ne_sign_of_isAlphanum hplain
  exact Literal.parse?_eq_none (splitSign_append hsign hminus hplus) hletter

end Grammar

open Grammar

/-! ## What is read -/

/-- The value of a literal is finite exactly if it is the nearest step of a finite rank. -/
theorem Literal.value_eq_finite_iff {l : Literal} {negative : Bool} {rank : Fin finiteRanks} :
    l.value = .finite negative rank
      ↔ l.negative = negative ∧ IsNearest l.magnitude.value rank := by
  rw [Decimal.isNearest_iff, Literal.value, Decimal.toBinary64_eq_ofRank, Binary64.ofRank]
  split
  · rw [Binary64.finite.injEq, Fin.ext_iff]
  · next hlarge =>
    constructor
    · intro h
      cases h
    · rintro ⟨-, hrank⟩
      rw [hrank] at hlarge
      exact absurd rank.isLt hlarge

theorem readNumber?_eq_some_iff {text : String} {v : Binary64} :
    readNumber? text = some v
      ↔ ∃ l, Literal.parse? (Text.trim text.toList) = some l ∧ l.value = v ∧ v.isFinite := by
  rw [readNumber?_eq, Option.filter_eq_some_iff, Option.map_eq_some_iff]
  constructor
  · rintro ⟨⟨l, hparse, hvalue⟩, hfinite⟩
    exact ⟨l, hparse, hvalue, hfinite⟩
  · rintro ⟨l, hparse, hvalue, hfinite⟩
    exact ⟨⟨l, hparse, hvalue⟩, hfinite⟩

theorem isSome_readNumber?_iff {text : String} :
    (readNumber? text).isSome
      ↔ ∃ l, Literal.parse? (Text.trim text.toList) = some l
        ∧ l.magnitude.value < 2 ^ 1024 - 2 ^ 970 := by
  rw [Option.isSome_iff_exists]
  constructor
  · rintro ⟨v, hv⟩
    obtain ⟨l, hparse, hvalue, hfinite⟩ := readNumber?_eq_some_iff.mp hv
    refine ⟨l, hparse, ?_⟩
    match v, hfinite with
    | .finite negative rank, _ =>
        have hnearest := (Literal.value_eq_finite_iff.mp hvalue).2
        -- a finite value is nearest to the number, so its rank is the one read
        rw [← Decimal.rank_lt_finiteRanks_iff, Decimal.isNearest_iff.mp hnearest]
        exact rank.isLt
  · rintro ⟨l, hparse, hsmall⟩
    rw [← Decimal.rank_lt_finiteRanks_iff] at hsmall
    have hvalue : l.value = .finite l.negative ⟨l.magnitude.rank, hsmall⟩ :=
      Literal.value_eq_finite_iff.mpr ⟨rfl, l.magnitude.isNearest_rank⟩
    exact ⟨_, readNumber?_eq_some_iff.mpr ⟨l, hparse, hvalue, rfl⟩⟩

/--
**A text is read exactly as the grammar says, and rounded to the nearest.** Apart
from the blanks around it, what is read is a number, and the value is the double of
its sign that is nearest to its magnitude. Every number is read unless it is so
large that no finite double is the nearest. A lone point is not read, and neither
are the words for other doubles.
-/
theorem readNumber?_grammar (text : String) :
    (∀ v, readNumber? text = some v ↔
      ∃ (before number after : List Char) (negative : Bool) (x : ℚ) (rank : Fin finiteRanks),
        text.toList = before ++ number ++ after
          ∧ (∀ c ∈ before, Text.isBlank c) ∧ (∀ c ∈ after, Text.isBlank c)
          ∧ Number number negative x ∧ IsNearest x rank ∧ v = .finite negative rank)
      ∧ ∀ before middle after : List Char, text.toList = before ++ middle ++ after →
        (∀ c ∈ before, Text.isBlank c) → (∀ c ∈ after, Text.isBlank c) →
          (∀ negative x, Number middle negative x →
            ((readNumber? text).isSome ↔ x < 2 ^ 1024 - 2 ^ 970))
            ∧ (middle = ['.'] ∨ Word middle → readNumber? text = none) := by
  refine ⟨fun v => ⟨fun h => ?_, ?_⟩, ?_⟩
  · obtain ⟨l, hparse, hvalue, hfinite⟩ := readNumber?_eq_some_iff.mp h
    obtain ⟨before, after, htext, hbefore, hafter⟩ := Text.exists_eq_append_trim text.toList
    match v, hfinite with
    | .finite negative rank, _ =>
        -- the sign and the magnitude are those of the literal
        obtain ⟨rfl, hnearest⟩ := Literal.value_eq_finite_iff.mp hvalue
        exact ⟨before, _, after, l.negative, _, rank, htext, hbefore, hafter,
          number_iff.mpr ⟨l, hparse, rfl, rfl⟩, hnearest, rfl⟩
  · rintro ⟨before, number, after, negative, x, rank,
      htext, hbefore, hafter, hnumber, hnearest, rfl⟩
    obtain ⟨l, hparse, rfl, rfl⟩ := number_iff.mp hnumber
    have htrim := Text.trim_append hbefore hafter (not_isBlank_of_number hnumber)
    rw [readNumber?_eq_some_iff, htext, htrim]
    exact ⟨l, hparse, Literal.value_eq_finite_iff.mpr ⟨rfl, hnearest⟩, rfl⟩
  · intro before middle after htext hbefore hafter
    constructor
    · intro negative x hnumber
      obtain ⟨l, hparse, rfl, rfl⟩ := number_iff.mp hnumber
      have htrim := Text.trim_append hbefore hafter (not_isBlank_of_number hnumber)
      rw [isSome_readNumber?_iff, htext, htrim, hparse]
      simp
    · -- neither has blanks, so it is what is left of the text, and it is no literal
      intro hrefused
      have hblank : ∀ c ∈ middle, Text.isBlank c = false := by
        rcases hrefused with rfl | hword
        · exact List.forall_mem_singleton.mpr rfl
        · exact not_isBlank_of_word hword
      have hparse : Literal.parse? middle = none := by
        rcases hrefused with rfl | hword
        · decide
        · exact parse?_of_word hword
      rw [readNumber?_eq, htext, Text.trim_append hbefore hafter hblank, hparse]
      rfl

/-- A negative zero between blanks is a number, and a negative infinity is none. -/
theorem readNumber?_grammar_between_blanks :
    (readNumber? " -0\t").isSome ∧ readNumber? "\n-Infinity" = none := by
  have hmantissa : Mantissa ['0'] (Literal.natOfDigits ['0']) :=
    .whole (List.cons_ne_nil _ _) (List.forall_mem_singleton.mpr rfl)
  have hsmall : (Literal.natOfDigits ['0'] : ℚ) * 10 ^ (0 : Int) < 2 ^ 1024 - 2 ^ 970 := by
    have hzero : Literal.natOfDigits ['0'] = 0 := rfl
    rw [hzero, Nat.cast_zero, zero_mul, sub_pos]
    exact pow_lt_pow_right₀ one_lt_two (by decide)
  have hzero := ((readNumber?_grammar " -0\t").2 [' '] ['-', '0'] ['\t'] (by decide)
    (List.forall_mem_singleton.mpr rfl) (List.forall_mem_singleton.mpr rfl)).1
    true _ (.mk .minus hmantissa .none)
  have hinfinity := ((readNumber?_grammar "\n-Infinity").2 ['\n'] "-Infinity".toList []
    (by decide) (List.forall_mem_singleton.mpr rfl) nofun).2
  exact ⟨hzero.mpr hsmall, hinfinity (Or.inr (.mk .minus (by decide)))⟩

end DeskCalculator
