import DeskCalculator.Proofs.AskedNames
import DeskCalculator.Calculator

/-!
# What the first name decides

A row is evaluated without its resolver until it comes to a name. Either it never
does, because it has no name or fails before the first one, and then all resolvers
give the same result and none is asked. Or it comes to the same first name with
the same values on the stack for every resolver, and asks.

So **an evaluation depends on its resolver exactly when it asks**: if it asks, a
resolver that refuses all names makes it fail with an invalid variable, and one
that knows all names does not.
-/

namespace DeskCalculator

namespace Resolver

/-- A resolver to which no name is a number. -/
def RefusesAll (resolve : Resolver) : Prop :=
  ∀ before name, resolve before name = .error (.invalidVariable name)

/-- A resolver to which every name is a number. -/
def KnowsAll (resolve : Resolver) : Prop :=
  ∀ before name, ∃ value, resolve before name = .ok value ∧ value.isNaN = false

theorem RefusesAll.answer_eq {resolve : Resolver} (h : resolve.RefusesAll) (asked : List String)
    (name : String) : resolve.answer asked name = .error (.invalidVariable name) := by
  rw [answer, h asked name]

theorem KnowsAll.answer_eq {resolve : Resolver} (h : resolve.KnowsAll) (asked : List String)
    (name : String) : ∃ value, resolve.answer asked name = .ok value := by
  obtain ⟨value, hvalue, hnumber⟩ := h asked name
  refine ⟨value, ?_⟩
  rw [answer, hvalue]
  dsimp only
  rw [hnumber]
  rfl

end Resolver

/-- An error comes from the first computation or from the next one. -/
theorem Asking.run_bind_ne_error {α β : Type} {first : Asking α} {next : α → Asking β}
    {asked : List String} {error : EvalError}
    (hfirst : (first.run.run asked).1 ≠ .error error)
    (hnext : ∀ value after, ((next value).run.run after).1 ≠ .error error) :
    ((first >>= next).run.run asked).1 ≠ .error error := by
  rw [run_bind]
  cases hrun : first.run.run asked with
  | mk result after =>
      rw [hrun] at hfirst
      cases result with
      | ok value => exact hnext value after
      | error cause => exact fun heq => hfirst (congrArg Except.error (Except.error.inj heq))

theorem Operator.apply_ne_invalidVariable (op : Operator) (left right : Binary64) (name : String) :
    op.apply left right ≠ .error (.invalidVariable name) := by
  cases op with
  | add | sub | mul => exact nofun
  | div =>
      unfold apply
      dsimp only
      split <;> exact nofun

namespace Evaluation

/-- A token that is no name has the same effect for every resolver. -/
theorem exists_result_step {token : Token} (h : token.name? = none) (stack : List Binary64) :
    ∃ result, ∀ (resolve : Resolver) (asked : List String),
      (step resolve stack token).run.run asked = (result, asked) := by
  match token with
  | .operand (.number value) => exact ⟨.ok (value :: stack), fun _ _ => rfl⟩
  | .operator op =>
      match stack with
      | right :: left :: below =>
          refine ⟨(op.apply left right).map (· :: below), fun resolve asked => ?_⟩
          rw [step, Asking.run_bind]
          cases op.apply left right <;> rfl
      | [_] => exact ⟨.error .invalidExpression, fun _ _ => rfl⟩
      | [] => exact ⟨.error .invalidExpression, fun _ _ => rfl⟩

/-- **A row comes to its first name in the same way for every resolver**, or to none. -/
theorem foldlM_step_cases (row : List Token) (stack : List Binary64) :
    (∃ result, ∀ (resolve : Resolver) (asked : List String),
        (row.foldlM (step resolve) stack).run.run asked = (result, asked))
      ∨ ∃ before name rest left, row = before ++ .operand (.name name) :: rest
        ∧ ∀ (resolve : Resolver) (asked : List String),
          (before.foldlM (step resolve) stack).run.run asked = (.ok left, asked) := by
  induction row generalizing stack with
  | nil => exact Or.inl ⟨.ok stack, fun _ _ => rfl⟩
  | cons token rest ih =>
      cases hname : token.name? with
      | some name =>
          -- the first name of the row is here
          rw [Token.eq_name_of_name? hname]
          exact Or.inr ⟨[], name, rest, stack, rfl, fun _ _ => rfl⟩
      | none =>
          obtain ⟨result, hstep⟩ := exists_result_step hname stack
          cases result with
          | error error =>
              -- the run is over before any name is met
              refine Or.inl ⟨.error error, fun resolve asked => ?_⟩
              rw [List.foldlM_cons, Asking.run_bind, hstep]
          | ok next =>
              have hcons (resolve : Resolver) (row : List Token) (asked : List String) :
                  ((token :: row).foldlM (step resolve) stack).run.run asked
                    = (row.foldlM (step resolve) next).run.run asked := by
                rw [List.foldlM_cons, Asking.run_bind, hstep]
              rcases ih next with ⟨result, hrest⟩ | ⟨before, name, more, left, rfl, hbefore⟩
              · exact Or.inl ⟨result, fun resolve asked => (hcons resolve rest asked).trans
                  (hrest resolve asked)⟩
              · exact Or.inr ⟨token :: before, name, more, left, rfl, fun resolve asked =>
                  (hcons resolve before asked).trans (hbefore resolve asked)⟩

/-- What was asked before the rest of a row is still known at its end. -/
theorem asked_subset (resolve : Resolver) (rest : List Token) (stack : List Binary64)
    (asked : List String) :
    asked ⊆ ((rest.foldlM (step resolve) stack >>= finish).run.run asked).2 := by
  obtain ⟨names, -, hasked⟩ := asked_foldlM resolve rest stack asked
  rw [asked_foldlM_finish, hasked]
  exact List.subset_append_left asked names

/-- **Either nothing is asked for any resolver, or something for each.** -/
theorem ofPostfix_cases (row : List Token) :
    (∃ result, ∀ resolve : Resolver, (ofPostfix resolve row).run.run [] = (result, []))
      ∨ ∃ name, ∀ resolve : Resolver, name ∈ ((ofPostfix resolve row).run.run []).2
        ∧ (resolve.RefusesAll →
          ((ofPostfix resolve row).run.run []).1 = .error (.invalidVariable name)) := by
  rcases foldlM_step_cases row [] with ⟨result, hrow⟩ | ⟨before, name, rest, left, rfl, hbefore⟩
  · refine Or.inl ⟨result >>= fun stack => (finish stack).outcome.result, fun resolve => ?_⟩
    rw [ofPostfix, Asking.run_bind, hrow]
    cases result with
    | error error => rfl
    | ok stack => exact Prod.ext rfl (asked_finish stack [])
  · refine Or.inr ⟨name, fun resolve => ?_⟩
    -- up to the name the run is the same for all resolvers
    have hsplit : ofPostfix resolve (before ++ .operand (.name name) :: rest) = (do
        let stack ← before.foldlM (step resolve) []
        let value ← resolve.ask name
        rest.foldlM (step resolve) (value :: stack) >>= finish) := by
      rw [ofPostfix, List.foldlM_append]
      simp only [List.foldlM_cons, step, Resolver.valueOf, bind_assoc, pure_bind]
    rw [hsplit, Asking.run_bind, hbefore]
    dsimp only
    rw [Asking.run_bind, resolve.run_ask]
    refine ⟨?_, fun hrefuses => ?_⟩
    · cases resolve.answer [] name with
      | error error => exact List.mem_singleton_self name
      | ok value =>
          exact asked_subset resolve rest (value :: left) [name] (List.mem_singleton_self name)
    · rw [hrefuses.answer_eq]

theorem step_ne_invalidVariable {resolve : Resolver} (h : resolve.KnowsAll) (stack : List Binary64)
    (token : Token) (asked : List String) (name : String) :
    ((step resolve stack token).run.run asked).1 ≠ .error (.invalidVariable name) := by
  -- putting a value on the stack never fails
  have hput (value : Binary64) (below : List Binary64) (after : List String) :
      ((pure (value :: below) : Asking (List Binary64)).run.run after).1
        ≠ .error (.invalidVariable name) := by
    intro heq
    cases heq
  cases token with
  | operand o =>
      refine Asking.run_bind_ne_error ?_ fun value => hput value stack
      cases o with
      | number value => rintro ⟨⟩
      | name text =>
          obtain ⟨value, hanswer⟩ := h.answer_eq asked text
          rw [Resolver.valueOf, resolve.run_ask, hanswer]
          rintro ⟨⟩
  | operator op =>
      rcases stack with _ | ⟨right, _ | ⟨left, below⟩⟩
      · rintro ⟨⟩
      · rintro ⟨⟩
      · exact Asking.run_bind_ne_error (op.apply_ne_invalidVariable left right name)
          fun value => hput value below

theorem foldlM_step_ne_invalidVariable {resolve : Resolver} (h : resolve.KnowsAll)
    (row : List Token) (stack : List Binary64) (asked : List String) (name : String) :
    ((row.foldlM (step resolve) stack).run.run asked).1 ≠ .error (.invalidVariable name) := by
  induction row generalizing stack asked with
  | nil => rintro ⟨⟩
  | cons token rest ih =>
      rw [List.foldlM_cons]
      exact Asking.run_bind_ne_error (step_ne_invalidVariable h stack token asked name) ih

/-- **With all names known, no variable is invalid.** -/
theorem ofPostfix_ne_invalidVariable {resolve : Resolver} (h : resolve.KnowsAll)
    (row : List Token) (name : String) :
    (ofPostfix resolve row).outcome.result ≠ .error (.invalidVariable name) := by
  refine Asking.run_bind_ne_error (foldlM_step_ne_invalidVariable h row [] [] name) ?_
  intro stack after
  match stack with
  | [value] => rintro ⟨⟩
  | [] => rintro ⟨⟩
  | _ :: _ :: _ => rintro ⟨⟩

end Evaluation

/--
**An evaluation depends on its resolver exactly when it asks.** If nothing is
asked, it is the same for all resolvers. Otherwise it asks whatever the resolver
is, and the resolver decides whether a variable is invalid.
-/
theorem evaluate_cases (texts : List String) :
    (∃ result, ∀ resolve : Resolver, (evaluate resolve texts).outcome = ⟨result, []⟩)
      ∨ ∀ resolve : Resolver, (evaluate resolve texts).outcome.asked ≠ []
        ∧ (resolve.RefusesAll →
          ∃ name, (evaluate resolve texts).outcome.result = .error (.invalidVariable name))
        ∧ (resolve.KnowsAll → ∀ name,
          (evaluate resolve texts).outcome.result ≠ .error (.invalidVariable name)) := by
  rcases Evaluation.ofPostfix_cases (Postfix.ofRow (Token.classifyAll texts)) with
    ⟨result, hsame⟩ | ⟨name, hasks⟩
  · refine Or.inl ⟨result.map fun raw => (Display.tidy raw, ⟨Token.line (Token.classifyAll texts),
      Token.line (Postfix.ofRow (Token.classifyAll texts))⟩), fun resolve => ?_⟩
    rw [outcome_evaluate, Asking.outcome, hsame]
  · -- the run asks, so the answer hangs on the resolver from there on
    refine Or.inr fun resolve => ?_
    obtain ⟨hmem, hrefused⟩ := hasks resolve
    rw [outcome_evaluate]
    refine ⟨List.ne_nil_of_mem hmem, fun hrefuses => ⟨name, ?_⟩, fun hknows other => ?_⟩
    · exact congrArg (Except.map _) (hrefused hrefuses)
    · have hraw := Evaluation.ofPostfix_ne_invalidVariable hknows
        (Postfix.ofRow (Token.classifyAll texts)) other
      cases hresult : (Evaluation.ofPostfix resolve
          (Postfix.ofRow (Token.classifyAll texts))).outcome.result with
      | ok raw => rintro ⟨⟩
      | error error =>
          rw [hresult] at hraw
          exact fun heq => hraw (congrArg Except.error (Except.error.inj heq))

namespace Session

/-- What `equals` leaves behind when the committed row was evaluated with the given outcome. -/
def replyTo (s : Session) (outcome : Outcome (Binary64 × Explanation)) : Reply :=
  match outcome.result with
  | .ok (value, explanation) => ⟨s.succeed value explanation, .ok value, outcome.asked⟩
  | .error error => ⟨fail error, .error error, outcome.asked⟩

theorem asked_replyTo (s : Session) (outcome : Outcome (Binary64 × Explanation)) :
    (s.replyTo outcome).outcome.asked = outcome.asked := by
  unfold replyTo
  split <;> rfl

/-- After a reply an error is recorded exactly when the evaluation failed with it. -/
theorem error_replyTo_iff (s : Session) (outcome : Outcome (Binary64 × Explanation))
    (error : EvalError) :
    (s.replyTo outcome).session.error = some error ↔ outcome.result = .error error := by
  unfold replyTo
  split
  · next hok => simp [hok, succeed]
  · next cause herror => simp [herror, fail]

theorem equals_of_not_repeated {s : Session} (h : s.repeated? = none) (resolve : Resolver) :
    s.equals resolve = s.commit.replyTo (evaluate resolve s.commit.tokens).outcome := by
  rw [equals, h]
  dsimp only
  cases (evaluate resolve s.commit.tokens).outcome with
  | mk result asked => cases result <;> rfl

/-- **The reply of a session is the same for all resolvers, or it asks.** -/
theorem equals_cases (s : Session) :
    (∃ reply : Reply, reply.outcome.asked = [] ∧ ∀ resolve, s.equals resolve = reply)
      ∨ ∀ resolve : Resolver, (s.equals resolve).outcome.asked ≠ []
        ∧ (resolve.RefusesAll →
          ∃ name, (s.equals resolve).session.error = some (.invalidVariable name))
        ∧ (resolve.KnowsAll → ∀ name,
          (s.equals resolve).session.error ≠ some (.invalidVariable name)) := by
  cases hrepeated : s.repeated? with
  | some value =>
      -- a repeated result is given without evaluating
      refine Or.inl ⟨⟨s, .ok value, []⟩, rfl, fun resolve => ?_⟩
      rw [equals, hrepeated]
  | none =>
      have hequals := equals_of_not_repeated hrepeated
      rcases evaluate_cases s.commit.tokens with ⟨result, hsame⟩ | hasks
      · refine Or.inl ⟨s.commit.replyTo ⟨result, []⟩, asked_replyTo _ _, fun resolve => ?_⟩
        rw [hequals, hsame]
      · refine Or.inr fun resolve => ?_
        simp only [hequals, asked_replyTo, error_replyTo_iff, ne_eq]
        exact hasks resolve

end Session

end DeskCalculator
