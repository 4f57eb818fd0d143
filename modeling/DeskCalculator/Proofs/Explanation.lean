import DeskCalculator.Evaluation
import DeskCalculator.Proofs.PrintedNumeral

/-!
# Explanations can be taken apart

An explanation writes tokens in one line, with a space between two. No token of a
typed row has a space in its text, so the line splits at its spaces into the texts
of the tokens again, and it tells how many tokens there were.
-/

namespace DeskCalculator

theorem Binary64.space_notMem_text (v : Binary64) : ' ' ∉ v.text.toList := by
  match v with
  | nan => decide
  | infinite true => decide
  | infinite false => decide
  | finite negative rank =>
      rw [text_finite, Numeral.toList_signedText]
      intro h
      rcases List.mem_append.mp h with hsign | hnumeral
      · cases negative <;> exact absurd hsign (by decide)
      · rcases Numeral.isDigit_or_point hnumeral with hd | hp
        · exact absurd hd (by decide)
        · exact absurd hp (by decide)

namespace Token

theorem space_notMem_of_isName {name : String} (h : isName name) : ' ' ∉ name.toList := by
  have hshape : isNameShape name.toList = true := (Bool.and_eq_true_iff.mp h).1
  intro hspace
  cases hchars : name.toList with
  | nil => rw [hchars] at hspace; exact absurd hspace (by simp)
  | cons first rest =>
      rw [hchars, isNameShape, Bool.and_eq_true] at hshape
      rw [hchars] at hspace
      rcases List.mem_cons.mp hspace with hfirst | hrest
      · rw [← hfirst] at hshape
        exact absurd hshape.1 (by decide)
      · exact absurd (List.all_eq_true.mp hshape.2 ' ' hrest) (by decide)

theorem space_notMem_text {texts : List String} {token : Token} (h : token ∈ classifyAll texts) :
    ' ' ∉ token.text.toList := by
  obtain ⟨text, _, hclass⟩ := List.mem_filterMap.mp h
  rcases classify?_cases hclass with ⟨value, _, rfl⟩ | ⟨_, hname, rfl⟩ | ⟨_, op, _, rfl⟩
  · exact value.space_notMem_text
  · exact space_notMem_of_isName hname
  · -- the four symbols are not spaces
    cases op <;> decide

/-- **A line splits at its spaces into the texts of its tokens.** -/
theorem splitOn_line {row : List Token} (hspace : ∀ token ∈ row, ' ' ∉ token.text.toList)
    (hne : row ≠ []) : (line row).toList.splitOn ' ' = row.map fun token => token.text.toList := by
  have hwords : ∀ word ∈ row.map (fun token => token.text.toList), ' ' ∉ word := by
    intro word hword
    obtain ⟨token, htoken, rfl⟩ := List.mem_map.mp hword
    exact hspace token htoken
  have hmap : (row.map text).map String.toList = row.map fun token => token.text.toList := by
    rw [List.map_map]
    rfl
  rw [line, String.toList_intercalate, hmap]
  exact List.splitOn_intercalate ' ' hwords (by simpa using hne)

/-- Typed rows of the same line have the same number of tokens. -/
theorem length_eq_of_line_eq {texts texts' : List String} (hne : classifyAll texts ≠ [])
    (hne' : classifyAll texts' ≠ []) (h : line (classifyAll texts) = line (classifyAll texts')) :
    (classifyAll texts).length = (classifyAll texts').length := by
  have hsplit := splitOn_line (fun _ htoken => space_notMem_text htoken) hne
  rw [h, splitOn_line (fun _ htoken => space_notMem_text htoken) hne'] at hsplit
  simpa using (congrArg List.length hsplit).symm

end Token

/-! ## What an evaluation explains -/

/-- An evaluation looks at its texts only as far as they are tokens. -/
theorem evaluate_congr {texts texts' : List String}
    (h : Token.classifyAll texts = Token.classifyAll texts') (resolve : Resolver) :
    evaluate resolve texts = evaluate resolve texts' := by
  rw [evaluate, evaluate, h]

/-- A value is tidied from that of the rearranged row; it is explained by the two rows. -/
theorem exists_raw_of_evaluate {resolve : Resolver} {texts : List String} {value : Binary64}
    {explanation : Explanation}
    (h : (evaluate resolve texts).outcome.result = .ok (value, explanation)) :
    ∃ raw, (Evaluation.ofPostfix resolve
        (Postfix.ofRow (Token.classifyAll texts))).outcome.result = .ok raw
      ∧ Display.tidy raw = value
      ∧ explanation = ⟨Token.line (Token.classifyAll texts),
          Token.line (Postfix.ofRow (Token.classifyAll texts))⟩ := by
  rw [outcome_evaluate] at h
  dsimp only at h
  cases hraw : (Evaluation.ofPostfix resolve
      (Postfix.ofRow (Token.classifyAll texts))).outcome.result with
  | error error =>
      rw [hraw] at h
      cases h
  | ok raw =>
      rw [hraw] at h
      obtain ⟨hvalue, hexplanation⟩ := Prod.mk.inj (Except.ok.inj h)
      exact ⟨raw, rfl, hvalue, hexplanation.symm⟩

/-- The explanation of a value shows the tokens as typed and in postfix order. -/
theorem explanation_of_evaluate {resolve : Resolver} {texts : List String} {value : Binary64}
    {explanation : Explanation}
    (h : (evaluate resolve texts).outcome.result = .ok (value, explanation)) :
    explanation = ⟨Token.line (Token.classifyAll texts),
      Token.line (Postfix.ofRow (Token.classifyAll texts))⟩ := by
  obtain ⟨_, _, _, hexplanation⟩ := exists_raw_of_evaluate h
  exact hexplanation

end DeskCalculator
