import DeskCalculator.Calculator
import DeskCalculator.Proofs.NearestStep
import DeskCalculator.Proofs.ShownResult

/-!
# Counting in the field

The keys of the field edit a text, and the field is read as a text. Seen from
outside both are arithmetic: a digit key multiplies a number by ten and adds the
digit, and delete divides it by ten and forgets the rest. What is in the field is
the decimal numeral of that number, so a digit that gives way to a lone `0` and a
delete that leaves one are no exceptions, they are what multiplying and dividing
zero comes to.

The numeral may be as long as someone cares to type. It is read as the nearest
double, and from the point on where no finite double is the nearest one, the field
has no value.
-/

namespace DeskCalculator

/-! ## Numerals grow and shrink at their end -/

theorem repr_eq_push {n : Nat} (h : 10 ≤ n) : n.repr = (n / 10).repr.push (n % 10).digitChar := by
  rw [Nat.repr_of_ge h, String.append_singleton]

theorem length_repr_le_one_iff {n : Nat} : n.repr.length ≤ 1 ↔ n < 10 := by
  rw [Nat.repr_eq_ofList_toDigits, String.length_ofList,
    Nat.length_toDigits_le_iff (by decide) (by decide), Nat.pow_one]

theorem head?_repr {n : Nat} (h : n ≠ 0) : n.repr.toList.head? ≠ some '0' := by
  rw [Nat.repr_eq_ofList_toDigits, String.toList_ofList]
  exact head?_toDigits (Nat.pos_of_ne_zero h)

/-- The number that a digit says. -/
def digitValue (c : Char) : Nat := c.toNat - '0'.toNat

theorem digitValue_lt {c : Char} (h : c.isDigit) : digitValue c < 10 := by
  have hbounds := Numeral.toNat_of_isDigit h
  have hzero : '0'.toNat = 48 := rfl
  rw [digitValue]
  omega

theorem digitChar_digitValue {c : Char} (h : c.isDigit) : (digitValue c).digitChar = c := by
  have hbounds := Numeral.toNat_of_isDigit h
  have hzero : '0'.toNat = 48 := rfl
  rw [← Char.toNat_inj, Nat.toNat_digitChar_of_lt_ten (digitValue_lt h), digitValue]
  omega

theorem repr_digitValue {c : Char} (h : c.isDigit) : (digitValue c).repr = String.singleton c := by
  rw [Nat.repr_of_lt (digitValue_lt h), digitChar_digitValue h]

/-- A digit at the end of the numeral of a number that is not zero. -/
theorem repr_ten_mul_add {n : Nat} (hn : n ≠ 0) {c : Char} (h : c.isDigit) :
    (10 * n + digitValue c).repr = n.repr.push c := by
  have hdigit := digitValue_lt h
  have hquotient : (10 * n + digitValue c) / 10 = n := by omega
  have hrest : (10 * n + digitValue c) % 10 = digitValue c := by omega
  rw [repr_eq_push (by omega), hquotient, hrest, digitChar_digitValue h]

/-! ## Numerals are read as the nearest double -/

/-- A whole number, without a point and zeros in front. -/
def Numeral.ofNat (n : Nat) : Numeral := Decimal.numeral ⟨n, 0⟩

theorem Numeral.text_ofNat (n : Nat) : (Numeral.ofNat n).text = n.repr := by
  rw [Numeral.ofNat, Numeral.text, Decimal.chars_numeral, Decimal.positional_of_places_eq_zero rfl,
    Nat.repr_eq_ofList_toDigits]
  exact congrArg String.ofList (List.append_nil _)

/-- The rank that a whole number is read as. -/
def wholeRank (n : Nat) : Nat := Decimal.rank ⟨n, 0⟩

theorem value_whole (n : Nat) : (⟨n, 0⟩ : Decimal).value = n := by
  rw [Decimal.value, zpow_zero, mul_one]

theorem isNearest_wholeRank (n : Nat) : IsNearest n (wholeRank n) := by
  rw [← value_whole]
  exact Decimal.isNearest_rank _

theorem wholeRank_lt_finiteRanks_iff (n : Nat) :
    wholeRank n < finiteRanks ↔ (n : ℚ) < 2 ^ 1024 - 2 ^ 970 := by
  rw [← value_whole]
  exact Decimal.rank_lt_finiteRanks_iff _

theorem readNumber?_repr (n : Nat) :
    readNumber? n.repr
      = if h : wholeRank n < finiteRanks then some (.finite false ⟨wholeRank n, h⟩) else none := by
  have hrank : (Numeral.ofNat n).literal.magnitude.rank = wholeRank n :=
    Decimal.rank_eq_of_value_eq (Decimal.value_literal_numeral _)
  have hvalue : (Numeral.ofNat n).literal.value = Binary64.ofRank false (wholeRank n) := by
    rw [← hrank]
    exact Decimal.toBinary64_eq_ofRank false _
  rw [← Numeral.text_ofNat, Numeral.readNumber?_text, hvalue, Binary64.ofRank]
  split
  · rfl
  · rfl

namespace VariableField

/-- The field shows a number by its numeral. For zero there may be nothing in it as well. -/
inductive Shows : VariableField → Nat → Prop where
  | blank : Shows ⟨""⟩ 0
  | numeral (n : Nat) : Shows ⟨n.repr⟩ n

variable {field : VariableField} {n : Nat}

/-- **A digit multiplies by ten and adds.** -/
theorem Shows.digit (h : field.Shows n) {c : Char} (hc : c.isDigit) :
    field.digit c = ⟨(10 * n + digitValue c).repr⟩ := by
  have hsingle : String.singleton c = (10 * 0 + digitValue c).repr := by
    rw [Nat.mul_zero, Nat.zero_add, repr_digitValue hc]
  cases h with
  | blank => rw [VariableField.digit, if_pos (Or.inl rfl), hsingle]
  | numeral n =>
      by_cases hzero : n = 0
      · -- a lone zero gives way to the digit
        have hlone : n.repr = "0" := congrArg Nat.repr hzero
        rw [VariableField.digit, if_pos (Or.inr hlone), hzero, hsingle]
      · have hkept : ¬(n.repr = "" ∨ n.repr = "0") := by
          rintro (hempty | hlone)
          · exact Nat.repr_ne_empty hempty
          · exact head?_repr hzero (by rw [hlone]; rfl)
        rw [VariableField.digit, if_neg hkept, repr_ten_mul_add hzero hc]

/-- **Delete divides by ten.** -/
theorem Shows.delete (h : field.Shows n) : field.delete = ⟨(n / 10).repr⟩ := by
  cases h with
  | blank => rfl
  | numeral n =>
      by_cases hsmall : n < 10
      · rw [VariableField.delete, if_pos (length_repr_le_one_iff.mpr hsmall),
          Nat.div_eq_of_lt hsmall]
        rfl
      · rw [VariableField.delete, if_neg (mt length_repr_le_one_iff.mp hsmall),
          repr_eq_push (Nat.le_of_not_lt hsmall), Text.dropLast_push]

theorem Shows.text_eq (h : field.Shows n) (hne : field.text ≠ "") : field.text = n.repr := by
  cases h with
  | blank => exact absurd rfl hne
  | numeral n => rfl

/-- Whatever name asks, the field stands for the double nearest to the number it shows. -/
theorem Shows.resolver_eq (h : field.Shows n) (asked : List String) (name : String) :
    field.resolver asked name
      = if h : wholeRank n < finiteRanks then .ok (.finite false ⟨wholeRank n, h⟩)
        else .error (.invalidVariable name) := by
  cases h with
  | blank =>
      -- a blank field stands for zero, which is what nothing counts up to
      have hrank : wholeRank 0 = 0 := Decimal.rank_of_digits_eq_zero rfl
      have hfinite : wholeRank 0 < finiteRanks := by
        rw [hrank]
        decide
      rw [dif_pos hfinite]
      simp only [hrank]
      rfl
  | numeral n =>
      -- nothing of a numeral is trimmed, so it is read as it stands
      have hblank : ∀ c ∈ n.repr.toList, Text.isBlank c = false := by
        intro c hc
        rw [← Numeral.text_ofNat, Numeral.toList_text] at hc
        exact Numeral.isBlank_eq_false (Numeral.isDigit_or_point hc)
      have hne : n.repr.toList ≠ [] := by
        rw [← Numeral.text_ofNat, Numeral.toList_text]
        exact Numeral.chars_ne_nil _
      rw [resolver, valueOf, Text.trim_eq_self hblank, if_neg hne, readNumber?_repr]
      by_cases hfinite : wholeRank n < finiteRanks
      · rw [dif_pos hfinite, dif_pos hfinite]
      · rw [dif_neg hfinite, dif_neg hfinite]

end VariableField

/-! ## Runs -/

namespace Key

/-- A key that acts on the field. -/
def isForField : Key → Bool
  | .fieldDigit _ | .fieldDelete => true
  | .digit _ | .decimal | .operator _ | .insertVariable | .equals | .delete | .clear => false

/-- What a key makes of the number in the field. -/
def count (n : Nat) : Key → Nat
  | .fieldDigit c => 10 * n + digitValue c
  | .fieldDelete => n / 10
  | .digit _ | .decimal | .operator _ | .insertVariable | .equals | .delete | .clear => n

end Key

namespace Calculator

open VariableField (Shows)

variable {desk : Calculator} {n : Nat}

/-- A key that is not for the field leaves it alone; behind one that is, there is a numeral. -/
theorem field_press (h : desk.field.Shows n) {key : Key}
    (hdigit : ∀ c, key = .fieldDigit c → c.isDigit) :
    (desk.press key).field = if key.isForField then ⟨(key.count n).repr⟩ else desk.field := by
  cases key with
  | fieldDigit c => exact h.digit (hdigit c rfl)
  | fieldDelete => exact h.delete
  | digit | decimal | operator | insertVariable | equals | delete | clear => rfl

theorem shows_press (h : desk.field.Shows n) {key : Key}
    (hdigit : ∀ c, key = .fieldDigit c → c.isDigit) :
    (desk.press key).field.Shows (key.count n) := by
  rw [field_press h hdigit]
  cases key with
  | fieldDigit c => exact Shows.numeral _
  | fieldDelete => exact Shows.numeral _
  | digit | decimal | operator | insertVariable | equals | delete | clear => exact h

theorem text_press_eq_empty_iff (h : desk.field.Shows n) {key : Key}
    (hdigit : ∀ c, key = .fieldDigit c → c.isDigit) :
    (desk.press key).field.text = "" ↔ desk.field.text = "" ∧ key.isForField = false := by
  rw [field_press h hdigit]
  cases hkey : key.isForField with
  | true => simp
  | false => simp

/-- **Pressing keys counts.** -/
theorem shows_pressAll {keys : List Key} (hdigits : ∀ c, .fieldDigit c ∈ keys → c.isDigit)
    (h : desk.field.Shows n) :
    (desk.pressAll keys).field.Shows (keys.foldl Key.count n)
      ∧ ((desk.pressAll keys).field.text = ""
        ↔ desk.field.text = "" ∧ ∀ key ∈ keys, key.isForField = false) := by
  induction keys generalizing desk n with
  | nil => exact ⟨h, by simp [pressAll]⟩
  | cons key rest ih =>
      have hkey : ∀ c, key = .fieldDigit c → c.isDigit := fun c hc =>
        hdigits c (hc ▸ List.mem_cons_self)
      have hrest : ∀ c, .fieldDigit c ∈ rest → c.isDigit := fun c hc =>
        hdigits c (List.mem_cons_of_mem key hc)
      -- the next key starts from the number that this one counts up to
      obtain ⟨hshows, hempty⟩ := ih hrest (shows_press h hkey)
      refine ⟨hshows, hempty.trans ?_⟩
      rw [text_press_eq_empty_iff h hkey, and_assoc, List.forall_mem_cons]

/--
**The field counts in decimal.**

From an empty field on, its text stays empty only as long as none of its keys is
pressed. Then it is the decimal numeral of the number that the keys count up to, with
no zero in front of other digits. Whatever name asks, the field stands for the double
nearest to that number as long as this is a finite one, and has no value otherwise.
Keys that are not for the field may be pressed in between.
-/
theorem field_pressAll {keys : List Key} (hempty : desk.field.text = "")
    (hdigits : ∀ c, .fieldDigit c ∈ keys → c.isDigit) :
    let field := (desk.pressAll keys).field
    let n := keys.foldl Key.count 0
    (field.text = "" ↔ ∀ key ∈ keys, key.isForField = false)
      ∧ (field.text ≠ "" → field.text = n.repr)
      ∧ (1 < field.text.length → field.text.toList.head? ≠ some '0')
      ∧ ∃ rank, IsNearest n rank
        ∧ (rank < finiteRanks ↔ (n : ℚ) < 2 ^ 1024 - 2 ^ 970)
        ∧ ∀ asked name, field.resolver asked name
          = if h : rank < finiteRanks then .ok (.finite false ⟨rank, h⟩)
            else .error (.invalidVariable name) := by
  intro field n
  -- an empty field already shows zero, which starts the invariant
  have hblank : desk.field.Shows 0 := by
    have hfield : desk.field = ⟨""⟩ := congrArg VariableField.mk hempty
    rw [hfield]
    exact Shows.blank
  obtain ⟨hshows, hsame⟩ := shows_pressAll hdigits hblank
  refine ⟨?_, hshows.text_eq, fun hlong => ?_, wholeRank n, isNearest_wholeRank n,
    wholeRank_lt_finiteRanks_iff n, hshows.resolver_eq⟩
  · rw [hsame, hempty]
    simp
  · have hne : field.text ≠ "" := by
      intro hnothing
      rw [hnothing] at hlong
      exact absurd hlong (by decide)
    -- only the numeral of zero starts with a zero, and it is not long
    rw [hshows.text_eq hne] at hlong ⊢
    exact head?_repr fun hzero => absurd (hzero ▸ hlong) (by decide)

/-- Three hundred and nine nines are too large for a double, and one delete brings it back. -/
theorem field_pressAll_nines :
    let nines := List.replicate 309 (Key.fieldDigit '9')
    (∀ c, .fieldDigit c ∈ nines ++ [.fieldDelete] → c.isDigit)
      ∧ (pressAll {} nines).field.text = (10 ^ 309 - 1).repr
      ∧ (pressAll {} nines).field.resolver [] "X" = .error (.invalidVariable "X")
      ∧ (pressAll {} (nines ++ [.fieldDelete])).field.text = (10 ^ 308 - 1).repr
      ∧ ∃ value, (pressAll {} (nines ++ [.fieldDelete])).field.resolver [] "X" = .ok value := by
  intro nines
  have hnines : ∀ c, .fieldDigit c ∈ nines → c.isDigit := by
    intro c hc
    rw [Key.fieldDigit.inj (List.eq_of_mem_replicate hc)]
    rfl
  have hdeleted : ∀ c, .fieldDigit c ∈ nines ++ [.fieldDelete] → c.isDigit := by
    intro c hc
    rcases List.mem_append.mp hc with hc | hc
    · exact hnines c hc
    · cases List.mem_singleton.mp hc
  have hcount : nines.foldl Key.count 0 = 10 ^ 309 - 1 := by decide +kernel
  have hfewer : (nines ++ [Key.fieldDelete]).foldl Key.count 0 = 10 ^ 308 - 1 := by decide +kernel
  -- the bound is a whole number, so that both comparisons are decided in the naturals
  have hlimit : (2 : ℚ) ^ 1024 - 2 ^ 970 = (2 ^ 1024 - 2 ^ 970 : Nat) := by
    rw [Nat.cast_sub (by decide +kernel), Nat.cast_pow, Nat.cast_pow, Nat.cast_ofNat]
  have hlarge : ¬((10 ^ 309 - 1 : Nat) : ℚ) < 2 ^ 1024 - 2 ^ 970 := by
    rw [hlimit, Nat.cast_lt]
    decide +kernel
  have hsmall : ((10 ^ 308 - 1 : Nat) : ℚ) < 2 ^ 1024 - 2 ^ 970 := by
    rw [hlimit, Nat.cast_lt]
    decide +kernel
  obtain ⟨hempty, htext, -, rank, -, hfinite, hvalue⟩ :=
    @field_pressAll {} nines rfl hnines
  obtain ⟨hempty', htext', -, rank', -, hfinite', hvalue'⟩ :=
    @field_pressAll {} (nines ++ [.fieldDelete]) rfl hdeleted
  rw [hcount] at hfinite htext
  rw [hfewer] at hfinite' htext'
  refine ⟨hdeleted, ?_, ?_, ?_, ?_⟩
  · exact htext (mt hempty.mp (by decide))
  · rw [hvalue, dif_neg (mt hfinite.mp hlarge)]
  · exact htext' (mt hempty'.mp (by decide))
  · rw [hvalue', dif_pos (hfinite'.mpr hsmall)]
    exact ⟨_, rfl⟩

end Calculator

end DeskCalculator
