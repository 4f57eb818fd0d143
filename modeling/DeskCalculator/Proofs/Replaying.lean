import DeskCalculator.Proofs.Explanation
import DeskCalculator.Proofs.PrintedRow

/-!
# Explanations can be replayed

An explanation shows the tokens of a row as they were typed and in postfix order,
each in one line. Cut at its spaces, a line falls into the printed texts of its
tokens: none of them is empty and none has a space in it. And a printed token is
classified as that token again, so nothing is lost or dropped on the way back.

**Typing the explanation gives the explanation.** The pieces of the typed line are
evaluated to the same value with the same explanation, and the pieces of the
ordered line, evaluated as they stand, to what was tidied to that value.
-/

namespace DeskCalculator

/-- The pieces of a line between its spaces, empty ones included. -/
def Text.pieces (line : String) : List String := (line.toList.splitOn ' ').map String.ofList

namespace Token

theorem pieces_line {row : List Token} (hspace : ∀ token ∈ row, ' ' ∉ token.text.toList)
    (hne : row ≠ []) : Text.pieces (line row) = row.map text := by
  rw [Text.pieces, splitOn_line hspace hne, List.map_map]
  refine List.map_congr_left ?_
  intro token _
  exact String.ofList_toList

theorem classify?_text_of_mem_classifyAll {texts : List String} {token : Token}
    (h : token ∈ classifyAll texts) : classify? token.text = some token := by
  obtain ⟨text, _, hclass⟩ := List.mem_filterMap.mp h
  exact classify?_text_of_classify? hclass

/-- **The line of a typed row, cut into pieces, is that row again.** -/
theorem classifyAll_pieces_line {texts : List String} (hne : classifyAll texts ≠ []) :
    classifyAll (Text.pieces (line (classifyAll texts))) = classifyAll texts := by
  have hspace : ∀ token ∈ classifyAll texts, ' ' ∉ token.text.toList :=
    fun _ htoken => space_notMem_text htoken
  rw [pieces_line hspace hne]
  exact classifyAll_map_text fun _ htoken => classify?_text_of_mem_classifyAll htoken

end Token

namespace Postfix

/-- The line of a rearranged row, cut into pieces, is the printed postfix order. -/
theorem pieces_line_ofRow {texts : List String} (hne : ofRow (Token.classifyAll texts) ≠ []) :
    Text.pieces (Token.line (ofRow (Token.classifyAll texts))) = ofTexts texts := by
  have hspace : ∀ token ∈ ofRow (Token.classifyAll texts), ' ' ∉ token.text.toList :=
    fun _ htoken => Token.space_notMem_text ((ofRow_perm _).mem_iff.mp htoken)
  exact Token.pieces_line hspace hne

end Postfix

/-- An empty row has no value. -/
theorem ofRow_ne_nil_of_ok {resolve : Resolver} {row : List Token} {raw : Binary64}
    (h : (Evaluation.ofPostfix resolve (Postfix.ofRow row)).outcome.result = .ok raw) :
    Postfix.ofRow row ≠ [] := by
  intro hnil
  rw [hnil] at h
  cases h

/--
**An explanation replays the evaluation that it explains.**

If a row of texts has a value, the pieces of the typed line have the same value
with the same explanation, and the pieces of the ordered line are, in postfix
order, worth what was tidied to that value. Each evaluation asks the resolver from
the start, so one that goes by the names alone answers as before, and the same
names are asked.
-/
theorem evaluate_pieces_explanation {resolve : Resolver} {texts : List String} {value : Binary64}
    {explanation : Explanation}
    (h : (evaluate resolve texts).outcome.result = .ok (value, explanation)) :
    (evaluate resolve (Text.pieces explanation.typed)).outcome
        = ⟨.ok (value, explanation), (evaluate resolve texts).outcome.asked⟩
      ∧ ∃ raw, (Evaluation.ofPostfixTexts resolve (Text.pieces explanation.ordered)).outcome
          = ⟨.ok raw, (evaluate resolve texts).outcome.asked⟩
        ∧ Display.tidy raw = value := by
  obtain ⟨raw, hraw, htidy, hexplanation⟩ := exists_raw_of_evaluate h
  have hordered : Postfix.ofRow (Token.classifyAll texts) ≠ [] := ofRow_ne_nil_of_ok hraw
  -- a line of no tokens could not be split back, but it has no value
  have htyped : Token.classifyAll texts ≠ [] := by
    intro hnil
    rw [hnil] at hordered
    exact hordered rfl
  have hasked : (evaluate resolve texts).outcome.asked
      = (Evaluation.ofPostfix resolve
        (Postfix.ofRow (Token.classifyAll texts))).outcome.asked := by
    rw [outcome_evaluate]
  refine ⟨?_, raw, ?_, htidy⟩
  · rw [hexplanation, evaluate_congr (Token.classifyAll_pieces_line htyped), ← hexplanation, ← h]
  · rw [hexplanation, Postfix.pieces_line_ofRow hordered, Evaluation.ofPostfixTexts_ofTexts,
      hasked, ← hraw]

/-- The row `00.1 + X`, with an empty text and one that is no token in it. -/
def tenthAndVariable : List String := ["00.1", "", "+", "?", "X"]

/-- With `0.2` for the variable, `0.1 + X` and `0.1 X +` replay it; the raw sum is tidied to `0.3`. -/
theorem evaluate_pieces_tenthAndVariable :
    let resolve : Resolver := fun _ _ => .ok (Binary64.ofBits 0x3FC999999999999A)
    let value := Binary64.ofBits 0x3FD3333333333333
    let explanation : Explanation := ⟨"0.1 + X", "0.1 X +"⟩
    (evaluate resolve tenthAndVariable).outcome.result = .ok (value, explanation)
      ∧ (evaluate resolve ["0.1", "+", "X"]).outcome = ⟨.ok (value, explanation), ["X"]⟩
      ∧ ∃ raw, (Evaluation.ofPostfixTexts resolve ["0.1", "X", "+"]).outcome = ⟨.ok raw, ["X"]⟩
        ∧ Display.tidy raw = value := by
  intro resolve value explanation
  have hvalue : (evaluate resolve tenthAndVariable).outcome.result = .ok (value, explanation) := by
    decide +kernel
  have hasked : (evaluate resolve tenthAndVariable).outcome.asked = ["X"] := by decide +kernel
  have htyped : Text.pieces "0.1 + X" = ["0.1", "+", "X"] := by decide +kernel
  have hordered : Text.pieces "0.1 X +" = ["0.1", "X", "+"] := by decide +kernel
  have hreplay := evaluate_pieces_explanation hvalue
  rw [htyped, hordered, hasked] at hreplay
  exact ⟨hvalue, hreplay⟩

end DeskCalculator
