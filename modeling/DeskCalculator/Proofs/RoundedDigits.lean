import DeskCalculator.Display
import DeskCalculator.Proofs.PrintedNumeral
import Mathlib.Tactic.IntervalCases

/-!
# Rounding on the digits

A double is rounded by hand, on the row of its digits. What is done to the digits
is arithmetic: the digits up to a place are a quotient by a power of ten, the digit
after them is the next remainder, and the carry adds one, whether or not it makes
the row longer. The point is counted from the end of the row, so it is put back at
its place also when there is a digit more in front of it.

**Nothing is missing.** A decimal with more places than are kept is written with a
point and a digit to look at, and its rounding is written out in the same way.
-/

namespace DeskCalculator.Display

/-! ## The next number -/

theorem digitChar_eq_nine_iff {d : Nat} (h : d < 10) : Nat.digitChar d = '9' ↔ d = 9 := by
  interval_cases d <;> decide

theorem five_le_digitChar_iff {d : Nat} (h : d < 10) : '5' ≤ Nat.digitChar d ↔ 5 ≤ d := by
  interval_cases d <;> decide

theorem ofNat_digitChar_succ {d : Nat} (h : d < 9) :
    Char.ofNat ((Nat.digitChar d).toNat + 1) = Nat.digitChar (d + 1) := by
  interval_cases d <;> decide

/-- A nine at the end becomes a zero and carries. -/
theorem increment_append_nine (digits : List Char) :
    increment (digits ++ ['9']) = increment digits ++ ['0'] := by
  unfold increment
  rw [List.reverse_concat, carry, if_pos rfl]
  dsimp only
  split
  · rw [List.reverse_cons, List.cons_append]
  · rw [List.reverse_cons]

/-- Any other digit at the end becomes the next one, and no other digit changes. -/
theorem increment_append {c : Char} (h : c ≠ '9') (digits : List Char) :
    increment (digits ++ [c]) = digits ++ [Char.ofNat (c.toNat + 1)] := by
  unfold increment
  rw [List.reverse_concat, carry, if_neg h]
  show (Char.ofNat (c.toNat + 1) :: digits.reverse).reverse = _
  rw [List.reverse_cons, List.reverse_reverse]

/-- One more in the last place is the next number, in the last digit and in those before. -/
theorem increment_append_digitChar {digits next : List Char} {n : Nat}
    (hnext : n % 10 = 9 → increment digits = next) (hkeep : n % 10 ≠ 9 → digits = next) :
    increment (digits ++ [Nat.digitChar (n % 10)]) = next ++ [Nat.digitChar ((n + 1) % 10)] := by
  have hdigit : n % 10 < 10 := Nat.mod_lt n (by decide)
  by_cases hnine : n % 10 = 9
  · have hzero : (n + 1) % 10 = 0 := by omega
    rw [(digitChar_eq_nine_iff hdigit).mpr hnine, increment_append_nine, hnext hnine, hzero]
    rfl
  · have hsucc : (n + 1) % 10 = n % 10 + 1 := by omega
    rw [increment_append (mt (digitChar_eq_nine_iff hdigit).mp hnine),
      ofNat_digitChar_succ (by omega), ← hkeep hnine, hsucc]

theorem increment_toDigits (n : Nat) :
    increment (Nat.toDigits 10 n) = Nat.toDigits 10 (n + 1) := by
  induction n using Nat.strongRecOn with
  | _ n ih =>
      rcases Nat.lt_or_ge n 9 with hsmall | hlarge
      · have hne : Nat.digitChar n ≠ '9' := fun h => by
          have hnine := (digitChar_eq_nine_iff (by omega)).mp h
          omega
        rw [Nat.toDigits_of_lt_base (by omega), Nat.toDigits_of_lt_base (by omega),
          ← List.nil_append [Nat.digitChar n], increment_append hne, ofNat_digitChar_succ hsmall]
        rfl
      · rcases Nat.eq_or_lt_of_le hlarge with rfl | hlarge
        · rfl
        · rw [Nat.toDigits_of_base_le (by decide) hlarge,
            Nat.toDigits_of_base_le (by decide) (show 10 ≤ n + 1 by omega)]
          -- a nine carries into the tenth part of the number, any other digit does not
          refine increment_append_digitChar (fun hnine => ?_) fun hne => ?_
          · rw [ih (n / 10) (by omega), show (n + 1) / 10 = n / 10 + 1 by omega]
          · rw [show (n + 1) / 10 = n / 10 by omega]

/-- A number of units of the last of some places: its whole part, then its decimals. -/
def unitsDigits (decimals units : Nat) : List Char :=
  Nat.toDigits 10 (units / 10 ^ decimals) ++ lastDigits decimals units

theorem unitsDigits_succ (decimals units : Nat) :
    unitsDigits (decimals + 1) units
      = unitsDigits decimals (units / 10) ++ [Nat.digitChar (units % 10)] := by
  rw [unitsDigits, unitsDigits, lastDigits, Nat.pow_succ', ← Nat.div_div_eq_div_mul,
    List.append_assoc]

/-- **The digits of the next number of units**, also when there is a digit more. -/
theorem increment_unitsDigits (decimals units : Nat) :
    increment (unitsDigits decimals units) = unitsDigits decimals (units + 1) := by
  induction decimals generalizing units with
  | zero =>
      rw [unitsDigits, unitsDigits, Nat.pow_zero, Nat.div_one, Nat.div_one, lastDigits,
        List.append_nil, increment_toDigits, lastDigits, List.append_nil]
  | succ decimals ih =>
      rw [unitsDigits_succ, unitsDigits_succ]
      refine increment_append_digitChar (fun hnine => ?_) fun hne => ?_
      · rw [ih, show (units + 1) / 10 = units / 10 + 1 by omega]
      · rw [show (units + 1) / 10 = units / 10 by omega]

/-! ## The digits that are kept -/

/-- The first of some digits are those of a quotient by a power of ten. -/
theorem lastDigits_add (kept rest n : Nat) :
    lastDigits (kept + rest) n = lastDigits kept (n / 10 ^ rest) ++ lastDigits rest n := by
  induction rest generalizing n with
  | zero => rw [Nat.add_zero, Nat.pow_zero, Nat.div_one, lastDigits, List.append_nil]
  | succ rest ih =>
      rw [← Nat.add_assoc, lastDigits, ih, Nat.div_div_eq_div_mul, ← Nat.pow_succ', lastDigits,
        List.append_assoc]

theorem splitAtPoint?_digits {whole : List Char} (h : ∀ c ∈ whole, c.isDigit)
    (fraction : List Char) :
    splitAtPoint? (whole ++ '.' :: fraction) = some (whole, fraction) := by
  have hkeep : ∀ c ∈ whole, (c != '.') = true := by
    intro c hc
    rw [bne_iff_ne]
    exact Numeral.ne_point (h c hc)
  rw [splitAtPoint?, List.dropWhile_append_of_pos hkeep, List.takeWhile_append_of_pos hkeep]
  simp

theorem positional_eq_unitsDigits {d : Decimal} (h : d.places ≠ 0) :
    d.positional = (unitsDigits d.places d.digits).take
        ((unitsDigits d.places d.digits).length - d.places)
      ++ '.' :: (unitsDigits d.places d.digits).drop
        ((unitsDigits d.places d.digits).length - d.places) := by
  have hlength : (unitsDigits d.places d.digits).length - d.places
      = (Nat.toDigits 10 (d.digits / 10 ^ d.places)).length := by
    rw [unitsDigits, List.length_append, length_lastDigits, Nat.add_sub_cancel]
  rw [hlength, unitsDigits, List.take_left, List.drop_left,
    Decimal.positional_of_places_ne_zero h]

/-- The digits kept, the next one, and the others. -/
theorem lastDigits_split (decimals rest n : Nat) :
    lastDigits (decimals + 1 + rest) n
      = lastDigits decimals (n / 10 ^ rest / 10)
        ++ Nat.digitChar (n / 10 ^ rest % 10) :: lastDigits rest n := by
  rw [lastDigits_add, lastDigits, List.append_assoc]
  rfl

/-- The next digit tells which of the two neighbours is nearer. -/
theorem unitsDigits_rounded (decimals n : Nat) :
    (if '5' ≤ Nat.digitChar (n % 10) then increment (unitsDigits decimals (n / 10))
      else unitsDigits decimals (n / 10)) = unitsDigits decimals ((n + 5) / 10) := by
  have hdigit : n % 10 < 10 := Nat.mod_lt n (by decide)
  simp only [five_le_digitChar_iff hdigit]
  split
  · rw [increment_unitsDigits, show (n + 5) / 10 = n / 10 + 1 by omega]
  · rw [show (n + 5) / 10 = n / 10 by omega]

/-- A text with a point and enough decimals is rounded, whatever it says. -/
theorem roundDigits?_append {decimals : Nat} {whole kept more : List Char} {next : Char}
    (hwhole : ∀ c ∈ whole, c.isDigit) (hkept : kept.length = decimals) :
    let digits := if '5' ≤ next then increment (whole ++ kept) else whole ++ kept
    roundDigits? decimals (whole ++ '.' :: (kept ++ next :: more))
      = some (digits.take (digits.length - decimals)
        ++ '.' :: digits.drop (digits.length - decimals)) := by
  have hnext : (kept ++ next :: more)[decimals]? = some next := by
    rw [← hkept, List.getElem?_append_right (Nat.le_refl _), Nat.sub_self, List.getElem?_cons_zero]
  have htake : (kept ++ next :: more).take decimals = kept := List.take_left' hkept
  rw [roundDigits?, splitAtPoint?_digits hwhole]
  simp only [Option.bind_eq_bind, Option.bind_some, hnext, htake]

/--
**A written decimal is rounded to the written decimal next to it.** The digit after
the places kept is there, and it tells which of the two neighbours it is.
-/
theorem roundDigits?_positional {d : Decimal} {decimals rest : Nat} (hdecimals : decimals ≠ 0)
    (h : d.places = decimals + 1 + rest) :
    roundDigits? decimals d.positional
      = some (⟨(d.digits / 10 ^ rest + 5) / 10, -decimals⟩ : Decimal).positional := by
  have hplaces : d.places ≠ 0 := by omega
  have hcount : (⟨(d.digits / 10 ^ rest + 5) / 10, -decimals⟩ : Decimal).places = decimals := by
    show (- -(decimals : Int)).toNat = decimals
    omega
  -- the whole part and the digits kept are those of one number of units
  have hkept : Nat.toDigits 10 (d.digits / 10 ^ d.places)
      ++ lastDigits decimals (d.digits / 10 ^ rest / 10)
        = unitsDigits decimals (d.digits / 10 ^ rest / 10) := by
    rw [unitsDigits, h, Nat.div_div_eq_div_mul, Nat.div_div_eq_div_mul, ← Nat.pow_succ,
      ← Nat.pow_add, show rest + 1 + decimals = decimals + 1 + rest by omega]
  rw [Decimal.positional_of_places_ne_zero hplaces, h, lastDigits_split, ← h,
    roundDigits?_append (isDigit_toDigits _) (length_lastDigits _ _), hkept, unitsDigits_rounded,
    positional_eq_unitsDigits (by rw [hcount]; exact hdecimals), hcount]

end DeskCalculator.Display
