import DeskCalculator.Evaluation
import DeskCalculator.Proofs.PrintedNumeral
import DeskCalculator.Proofs.RearrangingLoop

/-!
# Evaluating a printed row

A row can be evaluated as tokens, or it can be printed in postfix order and the
texts evaluated, each classified anew when it is reached. The two do the same,
because printing loses nothing: the text of every token that comes out of a typed
text is classified as that token again. A number is printed so that it reads back,
also when it is a negative zero, subnormal or hundreds of digits long, and a name
or an operator is printed as it was typed.

Rearranging brings no token into a row that was not in it, so all tokens of the
printed row have come out of typed texts.
-/

namespace DeskCalculator

open Evaluation

namespace Token

theorem isFinite_of_readNumber? {text : String} {value : Binary64}
    (h : readNumber? text = some value) : value.isFinite := by
  rw [readNumber?_eq] at h
  exact (Option.filter_eq_some_iff.mp h).2

theorem classify?_of_readNumber? {text : String} {value : Binary64}
    (h : readNumber? text = some value) : classify? text = some (.operand (.number value)) := by
  have hne : text ≠ "" := by
    have hempty : readNumber? "" = none := by decide
    rintro rfl
    rw [hempty] at h
    cases h
  rw [classify?, if_neg hne, h]

theorem readNumber?_of_isName {text : String} (h : isName text) : readNumber? text = none := by
  obtain ⟨-, hnumeric⟩ := Bool.and_eq_true_iff.mp h
  rw [Bool.not_eq_true', isNumeric, Option.isSome_eq_false_iff, Option.isNone_iff_eq_none]
    at hnumeric
  exact hnumeric

theorem classify?_of_isName {text : String} (h : isName text) :
    classify? text = some (.operand (.name text)) := by
  have hne : text ≠ "" := by
    rintro rfl
    exact absurd h (by decide)
  rw [classify?, if_neg hne, readNumber?_of_isName h]
  exact if_pos h

/-- The tokens that can be typed: finite numbers, names of the right shape, and operators. -/
def Typeable : Token → Prop
  | .operand (.number value) => value.isFinite
  | .operand (.name text) => isName text
  | .operator _ => True

theorem typeable_of_classify? {text : String} {token : Token} (h : classify? text = some token) :
    token.Typeable := by
  rcases classify?_cases h with ⟨value, hvalue, rfl⟩ | ⟨_, hname, rfl⟩ | ⟨_, op, _, rfl⟩
  · exact isFinite_of_readNumber? hvalue
  · exact hname
  · trivial

/-- What is printed for a token of one kind is not a text of another kind. -/
theorem classify?_text_of_typeable {token : Token} (h : token.Typeable) :
    classify? token.text = some token := by
  match token, h with
  | .operand (.number (.finite negative rank)), _ =>
      exact classify?_of_readNumber? (Binary64.readNumber?_text_finite negative rank)
  | .operand (.name _), hname => exact classify?_of_isName hname
  | .operator op, _ => exact classify?_text op

/-- **Printing a token and classifying its text gives the token again.** -/
theorem classify?_text_of_classify? {text : String} {token : Token}
    (h : classify? text = some token) : classify? token.text = some token :=
  classify?_text_of_typeable (typeable_of_classify? h)

/-- Printed tokens are classified as the tokens they were printed for, and none is dropped. -/
theorem classifyAll_map_text {row : List Token}
    (h : ∀ token ∈ row, classify? token.text = some token) :
    classifyAll (row.map text) = row := by
  rw [classifyAll, List.filterMap_map]
  exact (List.filterMap_congr h).trans List.filterMap_some

end Token

namespace Postfix

/-- The texts of a rearranged row are classified as the tokens they were printed for. -/
theorem classify?_text_of_mem_ofRow {texts : List String} {token : Token}
    (h : token ∈ ofRow (Token.classifyAll texts)) : Token.classify? token.text = some token := by
  obtain ⟨text, _, hclass⟩ := List.mem_filterMap.mp ((ofRow_perm _).mem_iff.mp h)
  exact Token.classify?_text_of_classify? hclass

end Postfix

namespace Evaluation

variable (resolve : Resolver)

/-- Every text is a token or empty. -/
def AllKnown (texts : List String) : Prop :=
  ∀ text ∈ texts, text ≠ "" → (Token.classify? text).isSome

instance (texts : List String) : Decidable (AllKnown texts) :=
  inferInstanceAs (Decidable (∀ text ∈ texts, text ≠ "" → (Token.classify? text).isSome))

/-- Texts that are all known have the effect of the tokens that they are. -/
theorem foldlM_stepText_of_allKnown {texts : List String} (h : AllKnown texts)
    (stack : List Binary64) :
    texts.foldlM (stepText resolve) stack
      = (Token.classifyAll texts).foldlM (step resolve) stack := by
  induction texts generalizing stack with
  | nil => rfl
  | cons text rest ih =>
      have hrest : AllKnown rest := fun t ht => h t (List.mem_cons_of_mem text ht)
      rw [List.foldlM_cons, stepText]
      by_cases hempty : text = ""
      · -- an empty text is skipped here and dropped there
        have hnone : Token.classify? text = none := if_pos hempty
        rw [if_pos hempty, pure_bind, ih hrest, Token.classifyAll, Token.classifyAll,
          List.filterMap_cons_none hnone]
      · obtain ⟨token, htoken⟩ :=
          Option.isSome_iff_exists.mp (h text List.mem_cons_self hempty)
        rw [if_neg hempty, htoken, Token.classifyAll, List.filterMap_cons_some htoken,
          List.foldlM_cons]
        exact bind_congr (ih hrest)

theorem allKnown_map_text {row : List Token}
    (h : ∀ token ∈ row, Token.classify? token.text = some token) :
    AllKnown (row.map Token.text) := by
  intro text htext _
  obtain ⟨token, htoken, rfl⟩ := List.mem_map.mp htext
  rw [h token htoken]
  rfl

/-- **The printed row is evaluated as the row is**, by the same steps. -/
theorem ofPostfixTexts_ofTexts (texts : List String) :
    ofPostfixTexts resolve (Postfix.ofTexts texts)
      = ofPostfix resolve (Postfix.ofRow (Token.classifyAll texts)) := by
  have hclass : ∀ token ∈ Postfix.ofRow (Token.classifyAll texts),
      Token.classify? token.text = some token :=
    fun _ htoken => Postfix.classify?_text_of_mem_ofRow htoken
  rw [ofPostfixTexts, Postfix.ofTexts,
    foldlM_stepText_of_allKnown resolve (allKnown_map_text hclass),
    Token.classifyAll_map_text hclass]
  rfl

end Evaluation

/--
**A row of texts and its printed postfix order are evaluated alike.**

The row has a value exactly when the printed row has one that is tidied to it;
the two fail with the same errors; and in either case both ask the same names in
the same order.
-/
theorem evaluate_iff_ofPostfixTexts (resolve : Resolver) (texts : List String) :
    (∀ value,
        (∃ explanation, (evaluate resolve texts).outcome.result = .ok (value, explanation)) ↔
          ∃ raw, (ofPostfixTexts resolve (Postfix.ofTexts texts)).outcome.result = .ok raw
            ∧ value = Display.tidy raw)
      ∧ (∀ error, (evaluate resolve texts).outcome.result = .error error ↔
          (ofPostfixTexts resolve (Postfix.ofTexts texts)).outcome.result = .error error)
      ∧ (evaluate resolve texts).outcome.asked
          = (ofPostfixTexts resolve (Postfix.ofTexts texts)).outcome.asked := by
  rw [outcome_evaluate, ofPostfixTexts_ofTexts]
  cases (ofPostfix resolve (Postfix.ofRow (Token.classifyAll texts))).outcome with
  | mk result asked =>
      cases result with
      | ok raw => simp [Except.map, eq_comm]
      | error error => simp [Except.map]

end DeskCalculator
