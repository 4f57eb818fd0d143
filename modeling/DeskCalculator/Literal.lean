import DeskCalculator.Decimal.Basic
import DeskCalculator.Text.Blank

/-!
# Number literals

A literal is an optional sign, digits with at most one point among them, and
optionally an exponent: the letter `e` or `E`, an optional sign and digits. One
digit is enough, and it may stand on either side of the point, so `5.` and `.5`
are literals while a lone point is not. Words such as `inf` or `nan` are not
numbers here.

Reading has two steps. `Literal.parse?` decides the grammar and keeps the parts
of the literal; `Literal.value` rounds the number the literal says, once, to the
nearest double. `Binary64.parse?` reads any double and knows the words, too.

`readNumber?` reads a number with blanks around it. What starts like a word is
refused before it is read, and a literal that is too large for a finite double is
refused after it.
-/

namespace DeskCalculator

/-- The parts of a number literal, as they are written. -/
structure Literal where
  negative : Bool
  whole : List Char
  /-- The digits after the point. -/
  fraction : List Char
  /-- The power of ten asked for, zero when none is written. -/
  exponent : Int
  deriving DecidableEq, Repr

namespace Literal

/-- The number that a row of digits says. -/
def natOfDigits (digits : List Char) : Nat := Nat.ofDigitChars 10 digits 0

/-- Takes the sign off a text; the flag says whether it was a minus. -/
def splitSign : List Char → Bool × List Char
  | '-' :: rest => (true, rest)
  | '+' :: rest => (false, rest)
  | text => (false, text)

theorem splitSign_cons {c : Char} (hminus : c ≠ '-') (hplus : c ≠ '+') (rest : List Char) :
    splitSign (c :: rest) = (false, c :: rest) := by
  unfold splitSign
  split
  · next heq => exact absurd (List.cons.inj heq).1 hminus
  · next heq => exact absurd (List.cons.inj heq).1 hplus
  · rfl

theorem ne_sign_of_isAlphanum {c : Char} (h : c.isAlphanum) : c ≠ '-' ∧ c ≠ '+' := by
  constructor
  · rintro rfl
    exact absurd h (by decide)
  · rintro rfl
    exact absurd h (by decide)

/-- Takes the digits after the point off a text that may start with a point. -/
def splitFraction : List Char → List Char × List Char
  | '.' :: rest => (rest.takeWhile Char.isDigit, rest.dropWhile Char.isDigit)
  | text => ([], text)

/-- The digits of an exponent, of which there must be one. -/
def exponentDigits? (negative : Bool) (digits : List Char) : Option Int :=
  if digits ≠ [] ∧ digits.all Char.isDigit then
    some (if negative then -(natOfDigits digits : Int) else natOfDigits digits)
  else none

/-- The exponent that ends a literal, all of the text being part of it. -/
def parseExponent? : List Char → Option Int
  | [] => some 0
  | letter :: rest =>
    if letter = 'e' ∨ letter = 'E' then
      let (negative, digits) := splitSign rest
      exponentDigits? negative digits
    else none

def parse? (text : List Char) : Option Literal :=
  let (negative, unsigned) := splitSign text
  let whole := unsigned.takeWhile Char.isDigit
  let (fraction, tail) := splitFraction (unsigned.dropWhile Char.isDigit)
  if whole = [] ∧ fraction = [] then none
  else (parseExponent? tail).map fun exponent => { negative, whole, fraction, exponent }

/-- The magnitude that a literal says: its digits, moved by its exponent and its point. -/
def magnitude (l : Literal) : Decimal :=
  ⟨natOfDigits (l.whole ++ l.fraction), l.exponent - l.fraction.length⟩

/-- The double nearest to the number that a literal says, with the literal's sign. -/
def value (l : Literal) : Binary64 := l.magnitude.toBinary64 l.negative

end Literal

namespace Binary64

/-- The double that has no digits and is said by a word, in upper or lower case. -/
def ofWord? (negative : Bool) (word : List Char) : Option Binary64 :=
  let word := word.map Char.toLower
  if word = ['i', 'n', 'f'] ∨ word = ['i', 'n', 'f', 'i', 'n', 'i', 't', 'y'] then
    some (.infinite negative)
  else if word = ['n', 'a', 'n'] then some .nan
  else none

/-- The double that a text says: the value of a literal, or a word after an optional sign. -/
def parse? (text : List Char) : Option Binary64 :=
  match Literal.parse? text with
  | some literal => some literal.value
  | none =>
    let (negative, unsigned) := Literal.splitSign text
    ofWord? negative unsigned

end Binary64

/-- A text that starts like a number: a digit or a point, after a sign if there is one. -/
def startsNumber (text : List Char) : Bool :=
  match (Literal.splitSign text).2 with
  | [] => false
  | first :: _ => first.isDigit || first == '.'

/-- The finite double that a text says, with any blanks around it. -/
def readNumber? (text : String) : Option Binary64 :=
  let trimmed := Text.trim text.toList
  if startsNumber trimmed then (Binary64.parse? trimmed).filter Binary64.isFinite
  else none

/-- A literal starts like a number. -/
theorem startsNumber_of_parse? {text : List Char} {literal : Literal}
    (h : Literal.parse? text = some literal) : startsNumber text := by
  unfold Literal.parse? at h
  unfold startsNumber
  cases hunsigned : (Literal.splitSign text).2 with
  | nil =>
      simp only [hunsigned] at h
      cases h
  | cons first rest =>
      simp only [hunsigned] at h
      by_cases hdigit : first.isDigit
      · simp [hdigit]
      · by_cases hpoint : first = '.'
        · simp [hpoint]
        · -- neither digits before a point nor a point
          simp [hdigit, Literal.splitFraction, hpoint] at h

namespace Binary64

theorem parse?_of_literal {text : List Char} {literal : Literal}
    (h : Literal.parse? text = some literal) : parse? text = some literal.value := by
  rw [parse?, h]

/-- A word is not a finite double. -/
theorem filter_ofWord? (negative : Bool) (word : List Char) :
    (ofWord? negative word).filter isFinite = none := by
  unfold ofWord?
  dsimp only
  split
  · rfl
  · split
    · rfl
    · rfl

end Binary64

/-- Words are refused in any case, so a number is read as a literal. -/
theorem readNumber?_eq (text : String) :
    readNumber? text
      = ((Literal.parse? (Text.trim text.toList)).map Literal.value).filter Binary64.isFinite := by
  rw [readNumber?]
  generalize Text.trim text.toList = trimmed
  cases hliteral : Literal.parse? trimmed with
  | some literal =>
      rw [if_pos (startsNumber_of_parse? hliteral), Binary64.parse?_of_literal hliteral]
      rfl
  | none =>
      -- the words that are read are those of values that are not finite
      have hword : (Binary64.parse? trimmed).filter Binary64.isFinite = none := by
        rw [Binary64.parse?, hliteral]
        exact Binary64.filter_ofWord? _ _
      rw [hword, ite_self]
      rfl

end DeskCalculator
