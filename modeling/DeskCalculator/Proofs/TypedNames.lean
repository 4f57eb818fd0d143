import DeskCalculator.Proofs.Explanation
import DeskCalculator.Proofs.FirstFailure
import DeskCalculator.Proofs.FirstName

/-!
# The names as they were typed

An evaluation works on the rearranged row and may fail anywhere. Still the names that
it asks can be read off the typed texts: it asks them in the order in which they were
typed, each as often as it was typed, and stops only when it fails. So a row with a
value has asked for all its names.

A row without names asks nothing, and so its resolver does not matter.
-/

namespace DeskCalculator

/-- **A row with a value has asked for all its names.** -/
theorem Evaluation.asked_ofPostfix_of_ok {resolve : Resolver} {row : List Token}
    {value : Binary64} (h : (ofPostfix resolve row).outcome.result = .ok value) :
    (ofPostfix resolve row).outcome.asked = row.filterMap Token.name? := by
  rcases reached_or_firstFailure resolve row with ⟨stack, hreached⟩ | ⟨error, asked, hfailure⟩
  · show ((row.foldlM (step resolve) [] >>= finish).run.run []).2 = _
    rw [Asking.run_bind_of_ok hreached.run, asked_finish]
  · have hfailed : (ofPostfix resolve row).outcome = ⟨.error error, asked⟩ :=
      Asking.outcome_eq_iff.mpr (Asking.run_bind_of_error hfailure.run)
    rw [hfailed] at h
    cases h

/--
**An evaluation asks for the names in the order in which they were typed.**

Whether operands and operators alternate or not, what is asked is a prefix of the
names among the texts, one question for each time that a name was typed. It is all of
them if there is a value. If no text is a name, nothing is asked and the outcome is
the same for all resolvers.
-/
theorem evaluate_asks_typedNames (resolve : Resolver) (texts : List String) :
    (evaluate resolve texts).outcome.asked <+: texts.filter Token.isName
      ∧ (∀ answer, (evaluate resolve texts).outcome.result = .ok answer →
          (evaluate resolve texts).outcome.asked = texts.filter Token.isName)
      ∧ ((∀ text ∈ texts, Token.isName text = false) →
          (evaluate resolve texts).outcome.asked = []
            ∧ ∀ other : Resolver,
              (evaluate other texts).outcome = (evaluate resolve texts).outcome) := by
  have htyped := asked_evaluate resolve texts
  refine ⟨htyped, ?_, ?_⟩
  · -- without an error every name of the row was reached
    rintro ⟨value, explanation⟩ hanswer
    obtain ⟨raw, hraw, _⟩ := exists_raw_of_evaluate hanswer
    rw [outcome_evaluate, ← Postfix.filterMap_name?_ofRow_classifyAll]
    exact Evaluation.asked_ofPostfix_of_ok hraw
  · intro hnameless
    have hnone : texts.filter Token.isName = [] := by
      rw [List.filter_eq_nil_iff]
      intro text htext
      rw [hnameless text htext]
      exact Bool.false_ne_true
    have hasked : (evaluate resolve texts).outcome.asked = [] := by
      rw [hnone] at htyped
      exact List.prefix_nil.mp htyped
    refine ⟨hasked, fun other => ?_⟩
    -- what asks for nothing does not depend on the resolver
    rcases evaluate_cases texts with ⟨result, hsame⟩ | hasks
    · rw [hsame other, hsame resolve]
    · exact absurd hasked (hasks resolve).1

/--
The first question is answered with one and all others with two, so `A + B * A` is five:
the second `A` is a question of its own. The row `1 2 +` asks nothing.
-/
theorem evaluate_asks_typedNames_twice :
    let resolve : Resolver := fun before _ =>
      .ok (Binary64.ofBits (if before = [] then 0x3FF0000000000000 else 0x4000000000000000))
    let refuse : Resolver := fun _ name => .error (.invalidVariable name)
    let answer := (Binary64.ofBits 0x4014000000000000, Explanation.mk "A + B * A" "A B A * +")
    (evaluate resolve ["A", "+", "?", "B", "*", "A"]).outcome = ⟨.ok answer, ["A", "B", "A"]⟩
      ∧ (evaluate refuse ["A", "+", "?", "B", "*", "A"]).outcome.asked <+: ["A", "B", "A"]
      ∧ (∀ text ∈ ["1", "2", "+"], Token.isName text = false)
      ∧ (evaluate refuse ["1", "2", "+"]).outcome = (evaluate resolve ["1", "2", "+"]).outcome := by
  intro resolve refuse answer
  have hnames : ["A", "+", "?", "B", "*", "A"].filter Token.isName = ["A", "B", "A"] := by
    decide +kernel
  have hresult : (evaluate resolve ["A", "+", "?", "B", "*", "A"]).outcome.result = .ok answer := by
    decide +kernel
  have hnameless : ∀ text ∈ ["1", "2", "+"], Token.isName text = false := by decide +kernel
  obtain ⟨_, hall, _⟩ := evaluate_asks_typedNames resolve ["A", "+", "?", "B", "*", "A"]
  obtain ⟨hfirst, _, _⟩ := evaluate_asks_typedNames refuse ["A", "+", "?", "B", "*", "A"]
  obtain ⟨_, _, hnone⟩ := evaluate_asks_typedNames resolve ["1", "2", "+"]
  have hasked := hall answer hresult
  rw [hnames] at hfirst hasked
  refine ⟨?_, hfirst, hnameless, (hnone hnameless).2 refuse⟩
  rw [← hresult, ← hasked]

end DeskCalculator
