import DeskCalculator.Proofs.AskedNames

/-!
# The first failure

A row is worked off token by token, and an evaluation of texts classifies each text
only when it comes to it. So there are many ways in which such an evaluation can
fail, and which of them is reported depends on which comes first.

To say this without the evaluation itself, a row is described from outside.
`StepsTo` and `StepFails` say what one token does: it has an effect or an error,
and never both. A row is `Reached` with the stack that its tokens lead to, one
after another; otherwise there is a first token that fails, behind a part of the
row that is reached. The names that have been asked are those of the tokens up to
there, that of the failing token included.

**The first failure is reported.** A text that is no token fails where it stands
in the row, so it is reported unless a token before it fails; and what stands
behind a failure changes nothing.
-/

namespace DeskCalculator

namespace Asking

variable {α β : Type}

theorem outcome_eq_iff {computation : Asking α} {result : Except EvalError α}
    {asked : List String} :
    computation.outcome = ⟨result, asked⟩ ↔ computation.run.run [] = (result, asked) := by
  rw [outcome]
  cases computation.run.run [] with
  | mk result' asked' => rw [Outcome.mk.injEq, Prod.mk.injEq]

theorem run_bind_of_ok {first : Asking α} {next : α → Asking β} {asked after : List String}
    {value : α} (h : first.run.run asked = (.ok value, after)) :
    (first >>= next).run.run asked = (next value).run.run after := by
  rw [run_bind, h]

/-- Nothing is done behind a failure. -/
theorem run_bind_of_error {first : Asking α} {next : α → Asking β} {asked after : List String}
    {error : EvalError} (h : first.run.run asked = (.error error, after)) :
    (first >>= next).run.run asked = (.error error, after) := by
  rw [run_bind, h]

end Asking

/-- An operator fails only as a division by zero. -/
theorem Operator.apply_eq_error {op : Operator} {left right : Binary64} {error : EvalError}
    (h : op.apply left right = .error error) :
    op = .div ∧ right.isZero ∧ error = .divisionByZero := by
  cases op with
  | add | sub | mul => cases h
  | div =>
      rw [apply] at h
      by_cases hzero : right.isZero
      · rw [if_pos hzero] at h
        exact ⟨rfl, hzero, (Except.error.inj h).symm⟩
      · rw [if_neg hzero] at h
        cases h

namespace Evaluation

/-! ## What one token does -/

/-- A token has an effect on the stack, when these names were asked before. -/
inductive StepsTo (resolve : Resolver) (asked : List String) :
    List Binary64 → Token → List Binary64 → Prop where
  | number (stack : List Binary64) (value : Binary64) :
      StepsTo resolve asked stack (.operand (.number value)) (value :: stack)
  | name (stack : List Binary64) {name : String} {value : Binary64} :
      resolve asked name = .ok value → value.isNaN = false →
      StepsTo resolve asked stack (.operand (.name name)) (value :: stack)
  | operator (below : List Binary64) {op : Operator} {left right value : Binary64} :
      op.apply left right = .ok value →
      StepsTo resolve asked (right :: left :: below) (.operator op) (value :: below)

/-- A token fails, when these names were asked before. -/
inductive StepFails (resolve : Resolver) (asked : List String) :
    List Binary64 → Token → EvalError → Prop where
  /-- There are not two values for an operator. -/
  | starved {stack : List Binary64} (op : Operator) :
      stack.length < 2 → StepFails resolve asked stack (.operator op) .invalidExpression
  | division (below : List Binary64) (left : Binary64) {right : Binary64} :
      right.isZero →
      StepFails resolve asked (right :: left :: below) (.operator .div) .divisionByZero
  /-- There is no value for a name. -/
  | refused (stack : List Binary64) {name : String} {error : EvalError} :
      resolve asked name = .error error →
      StepFails resolve asked stack (.operand (.name name)) error
  | notNumber (stack : List Binary64) {name : String} {value : Binary64} :
      resolve asked name = .ok value → value.isNaN →
      StepFails resolve asked stack (.operand (.name name)) (.invalidVariable name)

variable {resolve : Resolver}

/-- The result of a step, whatever the step asks. -/
theorem run_step {stack : List Binary64} {token : Token} {asked : List String}
    {result : Except EvalError (List Binary64)}
    (h : ((step resolve stack token).run.run asked).1 = result) :
    (step resolve stack token).run.run asked = (result, asked ++ token.name?.toList) :=
  Prod.ext h (asked_step resolve stack token asked)

theorem StepsTo.run {stack next : List Binary64} {token : Token} {asked : List String}
    (h : StepsTo resolve asked stack token next) :
    (step resolve stack token).run.run asked = (.ok next, asked ++ token.name?.toList) := by
  apply run_step
  cases h with
  | number value => rfl
  | name stack hanswer hnumber =>
      rw [step, Asking.run_bind, Resolver.valueOf, resolve.run_ask, Resolver.answer, hanswer]
      dsimp only
      rw [hnumber]
      rfl
  | operator below happly =>
      rw [step, Asking.run_bind, happly]
      rfl

theorem StepFails.run {stack : List Binary64} {token : Token} {error : EvalError}
    {asked : List String} (h : StepFails resolve asked stack token error) :
    (step resolve stack token).run.run asked = (.error error, asked ++ token.name?.toList) := by
  apply run_step
  cases h with
  | starved op hshort =>
      -- what is too short has fewer than two values
      match stack with
      | [] => rfl
      | [_] => rfl
      | _ :: _ :: _ => exact absurd hshort (by simp)
  | division below left hzero =>
      rw [step, Asking.run_bind, Operator.apply, if_pos hzero]
      rfl
  | refused stack hanswer =>
      rw [step, Asking.run_bind, Resolver.valueOf, resolve.run_ask, Resolver.answer, hanswer]
  | notNumber stack hanswer hnan =>
      rw [step, Asking.run_bind, Resolver.valueOf, resolve.run_ask, Resolver.answer, hanswer]
      dsimp only
      rw [if_pos hnan]

/-- **A token has an effect or it fails.** -/
theorem stepsTo_or_stepFails (resolve : Resolver) (asked : List String) (stack : List Binary64)
    (token : Token) :
    (∃ next, StepsTo resolve asked stack token next)
      ∨ ∃ error, StepFails resolve asked stack token error := by
  match token with
  | .operand (.number value) => exact Or.inl ⟨_, .number stack value⟩
  | .operand (.name name) =>
      cases hanswer : resolve asked name with
      | error error => exact Or.inr ⟨error, .refused stack hanswer⟩
      | ok value =>
          cases hnan : value.isNaN with
          | true => exact Or.inr ⟨_, .notNumber stack hanswer hnan⟩
          | false => exact Or.inl ⟨_, .name stack hanswer hnan⟩
  | .operator op =>
      match stack with
      | [] => exact Or.inr ⟨_, .starved op (by decide)⟩
      | [_] => exact Or.inr ⟨_, .starved op (by simp)⟩
      | right :: left :: below =>
          -- with both operands there only a division can fail
          cases happly : op.apply left right with
          | ok value => exact Or.inl ⟨_, .operator below happly⟩
          | error error =>
              obtain ⟨rfl, hzero, rfl⟩ := Operator.apply_eq_error happly
              exact Or.inr ⟨_, .division below left hzero⟩

/-! ## What a row does -/

/-- The stack that a row leads to when none of its tokens fails. -/
inductive Reached (resolve : Resolver) : List Token → List Binary64 → Prop where
  | start : Reached resolve [] []
  | onward {done : List Token} {stack next : List Binary64} {token : Token} :
      Reached resolve done stack →
      StepsTo resolve (done.filterMap Token.name?) stack token next →
      Reached resolve (done ++ [token]) next

/-- The error of the first token that fails, and the names that have been asked by then. -/
inductive FirstFailure (resolve : Resolver) : List Token → EvalError → List String → Prop where
  | intro {done : List Token} {stack : List Binary64} {token : Token} {error : EvalError}
      (rest : List Token) :
      Reached resolve done stack →
      StepFails resolve (done.filterMap Token.name?) stack token error →
      FirstFailure resolve (done ++ token :: rest) error
        ((done ++ [token]).filterMap Token.name?)

theorem filterMap_name?_concat (done : List Token) (token : Token) :
    (done ++ [token]).filterMap Token.name? = done.filterMap Token.name? ++ token.name?.toList := by
  rw [List.filterMap_append]
  cases hname : token.name? with
  | none => rw [List.filterMap_cons_none hname]; rfl
  | some name => rw [List.filterMap_cons_some hname]; rfl

theorem Reached.run {row : List Token} {stack : List Binary64} (h : Reached resolve row stack) :
    (row.foldlM (step resolve) []).run.run [] = (.ok stack, row.filterMap Token.name?) := by
  induction h with
  | start => rfl
  | onward _ hstep ih =>
      rw [List.foldlM_append, Asking.run_bind_of_ok ih, List.foldlM_cons,
        Asking.run_bind_of_ok hstep.run, filterMap_name?_concat]
      rfl

theorem FirstFailure.run {row : List Token} {error : EvalError} {asked : List String}
    (h : FirstFailure resolve row error asked) :
    (row.foldlM (step resolve) []).run.run [] = (.error error, asked) := by
  cases h with
  | intro rest hdone hfails =>
      rw [List.foldlM_append, Asking.run_bind_of_ok hdone.run, List.foldlM_cons,
        Asking.run_bind_of_error hfails.run, filterMap_name?_concat]

theorem Reached.not_firstFailure {row : List Token} {stack : List Binary64}
    (h : Reached resolve row stack) (error : EvalError) (asked : List String) :
    ¬FirstFailure resolve row error asked := by
  intro hfailure
  have hsame := h.run.symm.trans hfailure.run
  cases (Prod.mk.inj hsame).1

/-- A failure stays the first one when the row goes on. -/
theorem FirstFailure.append {row : List Token} {error : EvalError} {asked : List String}
    (h : FirstFailure resolve row error asked) (more : List Token) :
    FirstFailure resolve (row ++ more) error asked := by
  cases h with
  | intro rest hdone hfails =>
      rw [List.append_assoc, List.cons_append]
      exact .intro (rest ++ more) hdone hfails

/-- **A row is reached or it has a first failure.** -/
theorem reached_or_firstFailure (resolve : Resolver) (row : List Token) :
    (∃ stack, Reached resolve row stack) ∨ ∃ error asked, FirstFailure resolve row error asked := by
  induction row using List.reverseRecOn with
  | nil => exact Or.inl ⟨[], .start⟩
  | append_singleton done token ih =>
      rcases ih with ⟨stack, hdone⟩ | ⟨error, asked, hfailure⟩
      · rcases stepsTo_or_stepFails resolve (done.filterMap Token.name?) stack token with
          ⟨next, hstep⟩ | ⟨error, hfails⟩
        · exact Or.inl ⟨next, hdone.onward hstep⟩
        · exact Or.inr ⟨error, _, .intro [] hdone hfails⟩
      · exact Or.inr ⟨error, asked, hfailure.append [token]⟩

/-! ## What a row of texts does -/

/-- A failure on the way through the texts is the end of the evaluation. -/
theorem outcome_ofPostfixTexts_append {texts : List String} {error : EvalError}
    {asked : List String}
    (h : (texts.foldlM (stepText resolve) []).run.run [] = (.error error, asked))
    (more : List String) :
    (ofPostfixTexts resolve (texts ++ more)).outcome = ⟨.error error, asked⟩ := by
  rw [Asking.outcome_eq_iff, ofPostfixTexts, List.foldlM_append]
  exact Asking.run_bind_of_error (Asking.run_bind_of_error h)

/-- A text that is no token fails when it is come to. -/
theorem run_foldlM_stepText_unknown {before : List String} {text : String} {stack : List Binary64}
    {asked : List String}
    (hbefore : (before.foldlM (stepText resolve) []).run.run [] = (.ok stack, asked))
    (hne : text ≠ "") (hunknown : Token.classify? text = none) :
    ((before ++ [text]).foldlM (stepText resolve) []).run.run []
      = (.error (.unknownToken text), asked) := by
  rw [List.foldlM_append, Asking.run_bind_of_ok hbefore, List.foldlM_cons, stepText,
    if_neg hne, hunknown]
  rfl

/--
**The first failure is reported.**

Texts that are all tokens or empty are evaluated as the row of these tokens is.
Otherwise there is a first text that is neither. If a token before it fails, the error
is that of the first one that does, and if none fails the text is reported as unknown;
in either case no name is asked behind the failure. When a row of texts has failed on
the way, any texts behind it change neither the error nor what is asked.
-/
theorem outcome_ofPostfixTexts (resolve : Resolver) (texts : List String) :
    (AllKnown texts →
        (ofPostfixTexts resolve texts).outcome
          = (ofPostfix resolve (Token.classifyAll texts)).outcome)
      ∧ (∀ before text after, texts = before ++ text :: after → AllKnown before → text ≠ "" →
          Token.classify? text = none →
          (∀ error asked, FirstFailure resolve (Token.classifyAll before) error asked →
            (ofPostfixTexts resolve texts).outcome = ⟨.error error, asked⟩)
          ∧ ((¬∃ error asked, FirstFailure resolve (Token.classifyAll before) error asked) →
            (ofPostfixTexts resolve texts).outcome
              = ⟨.error (.unknownToken text), (Token.classifyAll before).filterMap Token.name?⟩))
      ∧ ∀ error asked,
          (texts.foldlM (stepText resolve) []).outcome = ⟨.error error, asked⟩ →
          ∀ more, (ofPostfixTexts resolve (texts ++ more)).outcome = ⟨.error error, asked⟩ := by
  refine ⟨fun hknown => ?_, ?_, fun error asked hfailed more => ?_⟩
  · rw [ofPostfixTexts, ofPostfix, foldlM_stepText_of_allKnown _ hknown]
  · rintro before text after rfl hknown hne hunknown
    refine ⟨fun error asked hfailure => ?_, fun hnone => ?_⟩
    · -- the texts in front fail by themselves, and the rest is not looked at
      apply outcome_ofPostfixTexts_append
      rw [foldlM_stepText_of_allKnown _ hknown]
      exact hfailure.run
    · -- they leave a stack, so the unknown text is what fails first
      obtain ⟨stack, hreached⟩ := (reached_or_firstFailure resolve _).resolve_right hnone
      have hbefore := hreached.run
      rw [← foldlM_stepText_of_allKnown _ hknown] at hbefore
      rw [List.append_cons]
      exact outcome_ofPostfixTexts_append (run_foldlM_stepText_unknown hbefore hne hunknown) after
  · exact outcome_ofPostfixTexts_append (Asking.outcome_eq_iff.mp hfailed) more

/--
With zero for X, `1 X / ?` divides by zero before it comes to the unknown text, and
`1 X * ?` comes to it. The name behind it is never asked.
-/
theorem outcome_ofPostfixTexts_unknown :
    let resolve : Resolver := fun _ _ => .ok (.zero false)
    (ofPostfixTexts resolve ["1", "", "X", "/", "?", "Y"]).outcome
        = ⟨.error .divisionByZero, ["X"]⟩
      ∧ (ofPostfixTexts resolve ["1", "", "X", "*", "?", "Y"]).outcome
        = ⟨.error (.unknownToken "?"), ["X"]⟩ := by
  intro resolve
  let one : Binary64 := .finite false ⟨1023 * 2 ^ 52, by decide⟩
  have hone : Reached resolve [.operand (.number one)] [one] :=
    Reached.start.onward (.number [] one)
  have hboth : Reached resolve [.operand (.number one), .operand (.name "X")] [.zero false, one] :=
    hone.onward (.name [one] rfl rfl)
  have hunknown : Token.classify? "?" = none := by decide +kernel
  constructor
  · -- the division by X fails before the unknown text is reached
    have hrow : Token.classifyAll ["1", "", "X", "/"]
        = [.operand (.number one), .operand (.name "X"), .operator .div] := by
      decide +kernel
    have hfailure : FirstFailure resolve (Token.classifyAll ["1", "", "X", "/"])
        .divisionByZero ["X"] := by
      rw [hrow]
      exact .intro [] hboth (.division [] one rfl)
    obtain ⟨-, hreport, -⟩ := outcome_ofPostfixTexts resolve ["1", "", "X", "/", "?", "Y"]
    exact (hreport ["1", "", "X", "/"] "?" ["Y"] rfl (by decide +kernel) (by decide) hunknown).1
      _ _ hfailure
  · have hrow : Token.classifyAll ["1", "", "X", "*"]
        = [.operand (.number one), .operand (.name "X"), .operator .mul] := by
      decide +kernel
    have hreached : Reached resolve (Token.classifyAll ["1", "", "X", "*"])
        [one * .zero false] := by
      rw [hrow]
      exact hboth.onward (.operator [] rfl)
    have hnames : (Token.classifyAll ["1", "", "X", "*"]).filterMap Token.name? = ["X"] := by
      rw [hrow]
      rfl
    obtain ⟨-, hreport, -⟩ := outcome_ofPostfixTexts resolve ["1", "", "X", "*", "?", "Y"]
    rw [← hnames]
    exact (hreport ["1", "", "X", "*"] "?" ["Y"] rfl (by decide +kernel) (by decide) hunknown).2
      fun ⟨error, asked, hfailure⟩ => hreached.not_firstFailure error asked hfailure

end Evaluation

end DeskCalculator
